import CyreneReactor.PackageRuntime.Discipline

namespace CyreneReactor.PackageRuntime

open Interaction

/-! What an activation knows while its client runs.

The facts below hold between any two steps of the call.  They survive what the
unlocked entry points do in between, because those never open a row.
-/

def Holds (requestId : String) (document : Document) (ledger : Ledger) : Prop :=
  ∃ row, ledger.packageRuntimeOperation requestId = some row ∧ row.receipt = some document

def Completed (owner : Owner) (requestId : String) (ledger : Ledger) : Prop :=
  ∃ row, ledger.packageRuntimeOperation requestId = some row ∧
    row.bindingId = owner.bindingId ∧ row.phase = .completed

theorem Completed.grows {owner : Owner} {requestId : String} {before after : Ledger}
    (grows : before.Grows after) (completed : Completed owner requestId before) :
    Completed owner requestId after := by
  obtain ⟨old, found, binding, phase⟩ := completed
  obtain ⟨new, foundNew, advances⟩ := grows requestId old found
  exact ⟨new, foundNew, advances.bindingId.trans binding, advances.completed phase ▸ phase⟩

namespace Performs

section Reads

variable {environment : Environment} {caller : Caller Command} {state next : State}

theorem readRow {requestId : String} {answer : Option Operation}
    (performs : Performs environment caller (.ledger (.packageRuntimeOperation requestId))
      state answer next) :
    answer = state.ledger.packageRuntimeOperation requestId ∧ next.ledger = state.ledger := by
  obtain ⟨now, ran⟩ := performs.effect
  exact ⟨(congrArg Prod.fst ran).symm, (congrArg Prod.snd ran).symm⟩

theorem readPending {bindingId : String} {answer : Option String}
    (performs : Performs environment caller (.ledger (.pendingRequest bindingId))
      state answer next) :
    answer = state.ledger.pendingRequest bindingId ∧ next.ledger = state.ledger := by
  obtain ⟨now, ran⟩ := performs.effect
  exact ⟨(congrArg Prod.fst ran).symm, (congrArg Prod.snd ran).symm⟩

end Reads

variable {owner : Owner} {environment : Environment} {caller : Caller Command} {op : Op}
  {state next : State} {answer : op.Answer} {requestId installationId : String}
  {document : Document}

/-- The step stores no new intent. -/
def Uncreating (op : Op) : Prop :=
  ∀ requestId bindingId packageId installationId,
    op ≠ .ledger (.createPackageRuntimeIntent requestId bindingId packageId installationId)

theorem origin (performs : Performs environment caller op state answer next)
    (uncreating : Uncreating op) {new : Operation}
    (found : next.ledger.packageRuntimeOperation requestId = some new) :
    ∃ old, state.ledger.packageRuntimeOperation requestId = some old ∧
      (new = old ∨ ∃ now transaction, op = .ledger transaction ∧
        LedgerOp.Rewrites now requestId old transaction new) := by
  cases known : state.ledger.packageRuntimeOperation requestId with
  | none =>
      rcases performs.absent known with absent | ⟨_, _, _, _, creating, _⟩
      · rw [found] at absent
        cases absent
      · exact absurd creating (uncreating _ _ _ _)
  | some old =>
      obtain ⟨other, foundOther, change⟩ := performs.present known
      rw [found, Option.some.injEq] at foundOther
      subst foundOther
      exact ⟨old, rfl, change⟩

theorem advanced (performs : Performs environment caller op state answer next)
    (uncreating : Uncreating op) {new : Operation}
    (found : next.ledger.packageRuntimeOperation requestId = some new) :
    ∃ old, state.ledger.packageRuntimeOperation requestId = some old ∧ old.Advances new := by
  obtain ⟨old, known, rfl | ⟨_, _, _, rewrites⟩⟩ := performs.origin uncreating found
  · exact ⟨_, known, .refl _⟩
  · exact ⟨old, known, rewrites.advances⟩

theorem stillAbsent (performs : Performs environment caller op state answer next)
    (uncreating : Uncreating op)
    (absent : state.ledger.packageRuntimeOperation requestId = none) :
    next.ledger.packageRuntimeOperation requestId = none := by
  rcases performs.absent absent with absent | ⟨_, _, _, _, creating, _⟩
  · exact absent
  · exact absurd creating (uncreating _ _ _ _)

theorem installedAs (performs : Performs environment caller op state answer next)
    (uncreating : Uncreating op)
    (installed : InstalledAs owner requestId installationId state.ledger) :
    InstalledAs owner requestId installationId next.ledger := by
  intro new found
  obtain ⟨old, known, advances⟩ := performs.advanced uncreating found
  rw [advances.bindingId, advances.installationId]
  exact installed old known

theorem solePending (performs : Performs environment caller op state answer next)
    (uncreating : Uncreating op) (sole : SolePending owner requestId state.ledger) :
    SolePending owner requestId next.ledger := by
  intro new member binding pending
  obtain ⟨old, known, advances⟩ := performs.advanced uncreating (Ledger.lookup_of_mem member)
  rw [advances.requestId]
  refine sole old (Ledger.mem_of_lookup known).1 (advances.bindingId ▸ binding) ?_
  by_contra settled
  have done : old.phase = .completed := by
    cases phase : old.phase <;> simp [phase, Phase.pending] at settled ⊢
  rw [advances.completed done, done] at pending
  cases pending

theorem withStatus (performs : Performs environment caller op state answer next)
    (uncreating : Uncreating op)
    (unpersisted : ∀ receipt, op ≠ .ledger (.persistPackageRuntimeReceipt requestId receipt))
    (withStatus : WithStatus requestId state.ledger) : WithStatus requestId next.ledger := by
  intro new found had
  obtain ⟨old, known, rfl | ⟨_, transaction, same, rewrites⟩⟩ := performs.origin uncreating found
  · exact withStatus _ known had
  · cases rewrites with
    | kept => exact withStatus _ known had
    | marked intended => exact withStatus old known had
    | receiptPersisted receipt unreceipted => exact absurd same (unpersisted receipt)
    | outcomeCommitted runtimeStatus receipt pending encodable => rfl
    | completed completable => exact withStatus old known had

theorem holds (performs : Performs environment caller op state answer next)
    (uncommitted : ∀ runtimeStatus receipt,
      op ≠ .ledger (.commitPackageRuntimeOutcome requestId runtimeStatus receipt))
    (holds : Holds requestId document state.ledger) : Holds requestId document next.ledger := by
  obtain ⟨old, found, receipt⟩ := holds
  obtain ⟨new, foundNew, rfl | ⟨_, transaction, same, rewrites⟩⟩ := performs.present found
  · exact ⟨_, foundNew, receipt⟩
  · refine ⟨new, foundNew, ?_⟩
    cases rewrites with
    | kept => exact receipt
    | marked intended => exact receipt
    | receiptPersisted payload unreceipted =>
        rw [(Operation.unreceipted_iff.mp unreceipted).2] at receipt
        cases receipt
    | outcomeCommitted runtimeStatus payload pending encodable => exact absurd same (uncommitted _ _)
    | completed completable => exact receipt

theorem pending (performs : Performs environment caller op state answer next)
    (uncreating : Uncreating op)
    (uncompleted : op ≠ .ledger (.completePackageRuntimeOperation requestId))
    (pending : ∀ row, state.ledger.packageRuntimeOperation requestId = some row →
      row.phase.pending = true) :
    ∀ row, next.ledger.packageRuntimeOperation requestId = some row →
      row.phase.pending = true := by
  intro new found
  obtain ⟨old, known, rfl | ⟨_, transaction, same, rewrites⟩⟩ := performs.origin uncreating found
  · exact pending _ known
  · cases rewrites with
    | kept => exact pending _ known
    | marked intended => rfl
    | receiptPersisted receipt unreceipted => rfl
    | outcomeCommitted runtimeStatus receipt was encodable => rfl
    | completed completable => exact absurd same uncompleted

end Performs

/-- A step without the lock stores no intent. -/
theorem Permits.uncreating {owner : Owner} {environment : Environment} {caller : Caller Command}
    {state : State} {op : Op} (permits : Permits owner environment caller false state op) :
    Performs.Uncreating op := by
  rintro requestId bindingId packageId installationId rfl
  cases permits.1

/-- The conditions on one step of an activation under which its receipt is kept:
what is delivered can be stored and is one receipt, and a read of the row that
directly follows a delivery finds an intent, or that receipt. -/
structure Retains (owner : Owner) (caller : Caller Command) (requestId installationId : String)
    (state : State) (event : Event) : Prop where
  encodable : ∀ payload, Intended caller requestId state.journal →
    event.delivery? owner requestId installationId = some payload → payload.encodable = true
  same : ∀ payload document, event.delivery? owner requestId installationId = some payload →
    Delivered owner caller requestId installationId state.journal document →
    document = payload.document
  read : ∀ row last payload, event.read? requestId = some row →
    lastOwn caller state.journal = some last →
    last.delivery? owner requestId installationId = some payload →
    row.phase = .intent ∨ row.receipt = some payload.document

/-- Every step of the call meets the conditions, and the request is not reconciled. -/
structure Environment.Retaining (owner : Owner) (caller : Caller Command)
    (requestId installationId : String) (environment : Environment) : Prop where
  steps : ∀ state op answer, environment state caller op answer →
    Retains owner caller requestId installationId state ⟨caller, op, answer⟩
  unreconciled : ∀ state other op answer, environment state other op answer →
    other.command ≠ .reconcile requestId

section Underway

variable (owner : Owner) (environment : Environment) (caller : Caller Command)
  (requestId installationId : String)

/-- What is known of the receipts delivered so far; one of them may still be on
its way into the row. -/
def Kept (pending : Option Payload) (state : State) : Prop :=
  (∀ row, state.ledger.packageRuntimeOperation requestId = some row →
    row.phase.pending = true) ∧
  match pending with
  | none => ∀ document, Delivered owner caller requestId installationId state.journal document →
      Holds requestId document state.ledger
  | some payload => payload.encodable = true ∧
      ∀ document, Delivered owner caller requestId installationId state.journal document →
        document = payload.document

/-- The call between two of its steps: whether its `persist_intent` returned,
whether it dispatched, and which delivery it has still to store. -/
structure Underway (ready spent : Bool) (pending : Option Payload) (state : State) : Prop where
  coherent : Coherent state
  intended : ready = true → Intended caller requestId state.journal
  blank : ready = false → state.ledger.packageRuntimeOperation requestId = none ∧
    ¬ Intended caller requestId state.journal
  installed : InstalledAs owner requestId installationId state.ledger
  sole : SolePending owner requestId state.ledger
  withStatus : WithStatus requestId state.ledger
  undispatched : spent = false →
    ∀ event ∈ state.journal, event.caller = caller → event.dispatches = false
  kept : environment.Retaining owner caller requestId installationId → ready = true →
    Kept owner caller requestId installationId pending state

/-- What is left when the call has ended. -/
structure Ends (state : State) : Prop where
  coherent : Coherent state
  holds : environment.Retaining owner caller requestId installationId → ∀ document,
    Delivered owner caller requestId installationId state.journal document →
    Holds requestId document state.ledger

end Underway

section Steps

variable {owner : Owner} {environment : Environment} {caller : Caller Command}
  {requestId installationId : String} {ready spent : Bool} {pending : Option Payload}
  {state next : State}

theorem Underway.ends
    (underway : Underway owner environment caller requestId installationId ready spent none state) :
    Ends owner environment caller requestId installationId state where
  coherent := underway.coherent
  holds retaining document delivered := by
    cases ready with
    | true => exact (underway.kept retaining rfl).2 document delivered
    | false => exact absurd delivered.intended (underway.blank rfl).2

/-- What others do without the lock. -/
theorem Underway.interfered {other : Caller Command} {op : Op} {answer : op.Answer}
    (underway : Underway owner environment caller requestId installationId ready spent pending state)
    (different : other.index ≠ caller.index)
    (performs : Performs environment other op state answer next)
    (permits : Permits owner environment other false state op) :
    Underway owner environment caller requestId installationId ready spent pending next := by
  have apart : other ≠ caller := fun same => different (same ▸ rfl)
  have uncreating := permits.uncreating
  have delivered : ∀ {document},
      Delivered owner caller requestId installationId next.journal document →
      Delivered owner caller requestId installationId state.journal document := by
    intro document now
    rw [performs.journal] at now
    rcases delivered_append.mp now with earlier | ⟨_, own, _⟩
    · exact earlier
    · exact absurd own apart
  constructor
  · exact performs.coherent permits underway.coherent
  · intro isReady
    rw [performs.journal]
    exact (underway.intended isReady).append
  · intro notReady
    refine ⟨performs.stillAbsent uncreating (underway.blank notReady).1, fun intended => ?_⟩
    rw [performs.journal] at intended
    rcases intended_append.mp intended with earlier | ⟨own, _⟩
    · exact (underway.blank notReady).2 earlier
    · exact apart own
  · exact performs.installedAs uncreating underway.installed
  · exact performs.solePending uncreating underway.sole
  · refine performs.withStatus uncreating ?_ underway.withStatus
    rintro receipt rfl
    cases permits.1
  · intro unspent event member own
    rw [performs.journal] at member
    rcases List.mem_append.mp member with earlier | last
    · exact underway.undispatched unspent event earlier own
    · rw [List.mem_singleton.mp last] at own
      exact absurd own apart
  · intro retaining isReady
    obtain ⟨open', kept⟩ := underway.kept retaining isReady
    have foreign := retaining.unreconciled _ _ _ _ performs.admitted
    constructor
    · refine performs.pending uncreating ?_ open'
      rintro rfl
      rcases permits with ⟨held, _⟩ | ⟨reconciling, _⟩
      · cases held
      · exact foreign reconciling
    · cases pending with
      | none =>
          intro document now
          refine performs.holds ?_ (kept document (delivered now))
          rintro runtimeStatus receipt rfl
          obtain ⟨_, _, _, ⟨held, _⟩ | ⟨reconciling, _⟩⟩ := permits
          · cases held
          · exact foreign reconciling
      | some payload => exact ⟨kept.1, fun document now => kept.2 document (delivered now)⟩

theorem Underway.stable :
    (discipline owner environment).Stable caller true
      (Underway owner environment caller requestId installationId ready spent pending) := by
  rintro state next ⟨other, otherHeld, different, unheld, op, answer, performs, permits⟩ underway
  rw [unheld rfl] at permits
  exact underway.interfered different performs permits

/-- A step of the call that changes no row of its own: the client moves, a row is
read, or a row is marked. -/
def Idle : Op → Prop
  | .ledger (.packageRuntimeOperation _) | .ledger (.pendingRequest _)
  | .ledger (.latestRequest _) | .ledger (.markPackageRuntimeUnknown _) => True
  | .ledger _ => False
  | _ => True

theorem Idle.uncreating {op : Op} (idle : Idle op) : Performs.Uncreating op := by
  rintro _ _ _ _ rfl
  exact idle

theorem Idle.unintended {op : Op} {answer : op.Answer} (idle : Idle op) :
    Event.intended? ⟨caller, op, answer⟩ = none := by
  unfold Event.intended?
  split
  · rename_i same
    cases same
    exact idle.elim
  · rfl

/-- An own step that changes no row: what it delivers is now on its way. -/
theorem Underway.idle {op : Op} {answer : op.Answer} {held : Bool}
    (underway : Underway owner environment caller requestId installationId ready spent pending state)
    (performs : Performs environment caller op state answer next)
    (permits : Permits owner environment caller held state op) (idle : Idle op)
    (free : pending = none ∨
      Event.delivery? owner requestId installationId ⟨caller, op, answer⟩ = none) :
    Underway owner environment caller requestId installationId ready
      (spent || Event.dispatches ⟨caller, op, answer⟩)
      (pending.or (Event.delivery? owner requestId installationId ⟨caller, op, answer⟩)) next := by
  have uncreating := idle.uncreating
  constructor
  · exact performs.coherent permits underway.coherent
  · intro isReady
    rw [performs.journal]
    exact (underway.intended isReady).append
  · intro notReady
    refine ⟨performs.stillAbsent uncreating (underway.blank notReady).1, fun intended => ?_⟩
    rw [performs.journal] at intended
    rcases intended_append.mp intended with earlier | ⟨_, storing⟩
    · exact (underway.blank notReady).2 earlier
    · rw [idle.unintended] at storing
      cases storing
  · exact performs.installedAs uncreating underway.installed
  · exact performs.solePending uncreating underway.sole
  · refine performs.withStatus uncreating ?_ underway.withStatus
    rintro receipt rfl
    exact idle
  · intro unspent event member own
    rw [performs.journal] at member
    simp only [Bool.or_eq_false_iff] at unspent
    rcases List.mem_append.mp member with earlier | last
    · exact underway.undispatched unspent.1 event earlier own
    · rw [List.mem_singleton.mp last]
      exact unspent.2
  · intro retaining isReady
    obtain ⟨open', kept⟩ := underway.kept retaining isReady
    have intended := underway.intended isReady
    have retains := retaining.steps _ _ _ performs.admitted
    refine ⟨performs.pending uncreating (by rintro rfl; exact idle) open', ?_⟩
    have before : ∀ {document},
        Delivered owner caller requestId installationId next.journal document →
        Delivered owner caller requestId installationId state.journal document ∨
          (Event.delivery? owner requestId installationId ⟨caller, op, answer⟩).map
            Payload.document = some document := by
      intro document now
      rw [performs.journal] at now
      rcases delivered_append.mp now with earlier | ⟨_, _, delivers⟩
      · exact .inl earlier
      · exact .inr delivers
    cases delivers : Event.delivery? owner requestId installationId ⟨caller, op, answer⟩ with
    | none =>
        rw [delivers] at before
        cases pending with
        | none =>
            intro document now
            rcases before now with earlier | absent
            · exact performs.holds (by rintro _ _ rfl; exact idle) (kept document earlier)
            · cases absent
        | some payload =>
            refine ⟨kept.1, fun document now => ?_⟩
            rcases before now with earlier | absent
            · exact kept.2 document earlier
            · cases absent
    | some payload =>
        rcases free with rfl | undelivered
        · refine ⟨retains.encodable payload intended delivers, fun document now => ?_⟩
          rcases before now with earlier | here
          · exact retains.same payload document delivers earlier
          · rw [delivers, Option.map_some, Option.some.injEq] at here
            exact here.symm
        · rw [delivers] at undelivered
          cases undelivered

/-- A delivery on its way that cannot count before the intent is stored. -/
theorem Underway.dropped
    (underway : Underway owner environment caller requestId installationId false spent pending state) :
    Underway owner environment caller requestId installationId false spent none state :=
  { underway with kept := fun _ isReady => by cases isReady }

/-- A ledger call of the activation that delivers nothing itself and leaves the
rows as they were. -/
theorem Underway.refused {op : LedgerOp} {answer : op.Answer} {held : Bool}
    (underway : Underway owner environment caller requestId installationId ready spent pending state)
    (performs : Performs environment caller (.ledger op) state answer next)
    (permits : Permits owner environment caller held state (.ledger op))
    (same : next.ledger = state.ledger)
    (unintended : ready = true ∨ Event.intended? ⟨caller, .ledger op, answer⟩ = none) :
    Underway owner environment caller requestId installationId ready spent pending next := by
  have delivered : ∀ {document},
      Delivered owner caller requestId installationId next.journal document →
      Delivered owner caller requestId installationId state.journal document := by
    intro document now
    rw [performs.journal] at now
    rcases delivered_append.mp now with earlier | ⟨_, _, delivers⟩
    · exact earlier
    · cases delivers
  constructor
  · exact performs.coherent permits underway.coherent
  · intro isReady
    rw [performs.journal]
    exact (underway.intended isReady).append
  · intro notReady
    refine ⟨same ▸ (underway.blank notReady).1, fun intended => ?_⟩
    rw [performs.journal] at intended
    rcases intended_append.mp intended with earlier | ⟨_, storing⟩
    · exact (underway.blank notReady).2 earlier
    · rcases unintended with isReady | unintended
      · rw [notReady] at isReady
        cases isReady
      · rw [unintended] at storing
        cases storing
  · exact same ▸ underway.installed
  · exact same ▸ underway.sole
  · exact same ▸ underway.withStatus
  · intro unspent event member own
    rw [performs.journal] at member
    rcases List.mem_append.mp member with earlier | last
    · exact underway.undispatched unspent event earlier own
    · rw [List.mem_singleton.mp last]
      rfl
  · intro retaining isReady
    obtain ⟨open', kept⟩ := underway.kept retaining isReady
    refine ⟨same ▸ open', ?_⟩
    cases pending with
    | none => exact fun document now => same ▸ kept document (delivered now)
    | some payload => exact ⟨kept.1, fun document now => kept.2 document (delivered now)⟩

/-- `create_package_runtime_intent` under the lock. -/
theorem Underway.creates {packageId : String} {answer : Except Failure Operation} {held : Bool}
    (underway : Underway owner environment caller requestId installationId ready spent none state)
    (performs : Performs environment caller
      (.ledger (.createPackageRuntimeIntent requestId owner.bindingId packageId installationId))
      state answer next)
    (permits : Permits owner environment caller held state
      (.ledger (.createPackageRuntimeIntent requestId owner.bindingId packageId installationId))) :
    Underway owner environment caller requestId installationId (ready || answer.isOk) spent none
      next := by
  obtain ⟨now, ran⟩ := performs.effect
  rcases LedgerOp.run_create ran with ⟨raised, rfl, same⟩ | ⟨row, rfl, same, found, _⟩ | ⟨rfl, created⟩
  · rw [show (ready || (Except.error raised : Except Failure Operation).isOk) = ready by
      simp [Except.isOk, Except.toBool]]
    exact underway.refused performs permits same (.inr rfl)
  · have isReady : ready = true := by
      by_contra notReady
      rw [(underway.blank (by simpa using notReady)).1] at found
      cases found
    subst isReady
    exact underway.refused performs permits same (.inl rfl)
  · have absent := created.fresh
    have here := created.here
    have notReady : ready = false := by
      by_contra isReady
      exact underway.coherent.present (underway.intended (by simpa using isReady)) absent
    have unintended := (underway.blank notReady).2
    subst notReady
    have rowHere : ∀ row, next.ledger.packageRuntimeOperation requestId = some row →
        row = ⟨requestId, owner.bindingId, packageId, installationId, "activate", .intent, none,
          none, now⟩ := by
      intro row found
      rw [here, Option.some.injEq] at found
      exact found.symm
    refine ⟨performs.coherent permits underway.coherent, fun _ => ?_,
      fun notReady => (by cases notReady), fun row found => rowHere row found ▸ ⟨rfl, rfl⟩,
      fun row member binding pending => ?_, fun row found had => ?_,
      fun unspent event member own => ?_,
      fun retaining _ => ⟨fun row found => ?_, fun document now' => ?_⟩⟩
    · rw [performs.journal]
      exact intended_append.mpr (.inr ⟨rfl, rfl⟩)
    · by_contra different
      have old := Ledger.lookup_of_mem member
      rw [created.elsewhere _ different] at old
      rw [created.idle row (Ledger.mem_of_lookup old).1 binding] at pending
      cases pending
    · rw [rowHere row found] at had
      cases had
    · rw [performs.journal] at member
      rcases List.mem_append.mp member with earlier | last
      · exact underway.undispatched unspent event earlier own
      · rw [List.mem_singleton.mp last]
        rfl
    · rw [rowHere row found]
      rfl
    · rw [performs.journal] at now'
      rcases delivered_append.mp now' with earlier | ⟨earlier, _⟩
      · exact absurd earlier.intended unintended
      · exact absurd earlier unintended

/-- `commit_package_runtime_outcome` under the lock: the receipt on its way is stored. -/
theorem Underway.commits {runtimeStatus receipt : Payload} {answer : Except Failure Unit}
    {held : Bool}
    (underway : Underway owner environment caller requestId installationId ready spent
      (some ⟨receipt.document, runtimeStatus.encodable && receipt.encodable⟩) state)
    (performs : Performs environment caller
      (.ledger (.commitPackageRuntimeOutcome requestId runtimeStatus receipt)) state answer next)
    (permits : Permits owner environment caller held state
      (.ledger (.commitPackageRuntimeOutcome requestId runtimeStatus receipt))) :
    Underway owner environment caller requestId installationId ready spent none next := by
  obtain ⟨now, ran⟩ := performs.effect
  have uncreating : Performs.Uncreating
      (.ledger (.commitPackageRuntimeOutcome requestId runtimeStatus receipt)) :=
    fun _ _ _ _ same => by cases same
  have delivered : ∀ {document},
      Delivered owner caller requestId installationId next.journal document →
      Delivered owner caller requestId installationId state.journal document := by
    intro document now
    rw [performs.journal] at now
    rcases delivered_append.mp now with earlier | ⟨_, _, delivers⟩
    · exact earlier
    · cases delivers
  refine ⟨performs.coherent permits underway.coherent, fun isReady => ?_, fun notReady => ?_,
    performs.installedAs uncreating underway.installed,
    performs.solePending uncreating underway.sole,
    performs.withStatus uncreating (fun _ same => by cases same) underway.withStatus,
    fun unspent event member own => ?_, fun retaining isReady => ?_⟩
  · rw [performs.journal]
    exact (underway.intended isReady).append
  · refine ⟨performs.stillAbsent uncreating (underway.blank notReady).1, fun intended => ?_⟩
    rw [performs.journal] at intended
    rcases intended_append.mp intended with earlier | ⟨_, storing⟩
    · exact (underway.blank notReady).2 earlier
    · cases storing
  · rw [performs.journal] at member
    rcases List.mem_append.mp member with earlier | last
    · exact underway.undispatched unspent event earlier own
    · rw [List.mem_singleton.mp last]
      rfl
  · obtain ⟨open', encodable, same⟩ := underway.kept retaining isReady
    refine ⟨performs.pending uncreating (fun same => by cases same) open', fun document now' => ?_⟩
    rw [same document (delivered now')]
    simp only [Bool.and_eq_true] at encodable
    obtain ⟨row, found⟩ := Option.ne_none_iff_exists'.mp
      (underway.coherent.present (underway.intended isReady))
    rcases LedgerOp.run_commit ran with ⟨_, _, settled⟩ | ⟨_, _, _, rewritten⟩
    · have closed := settled row found encodable.1 encodable.2
      rw [open' row found] at closed
      cases closed
    · refine ⟨_, by rw [rewritten, found]; rfl, ?_⟩
      simp [Operation.outcomeCommitted, Operation.updated, (Ledger.mem_of_lookup found).2,
        open' row found]

/-- `complete_package_runtime_operation` under the lock. -/
theorem Underway.completes {answer : Except Failure Unit} {held : Bool}
    (underway : Underway owner environment caller requestId installationId ready spent none state)
    (performs : Performs environment caller
      (.ledger (.completePackageRuntimeOperation requestId)) state answer next)
    (permits : Permits owner environment caller held state
      (.ledger (.completePackageRuntimeOperation requestId))) :
    ((∃ kind text, answer = .error (.exception kind text)) ∧
      Underway owner environment caller requestId installationId ready spent none next) ∨
    (answer = .ok () ∧ Completed owner requestId next.ledger ∧
      Ends owner environment caller requestId installationId next) := by
  obtain ⟨now, ran⟩ := performs.effect
  rcases LedgerOp.run_complete ran with ⟨refused, same⟩ | ⟨ok, ⟨row, found, completable⟩, rewritten⟩
  · exact .inl ⟨refused, underway.refused performs permits same (.inr rfl)⟩
  · refine .inr ⟨ok, ⟨_, by rw [rewritten, found]; rfl, ?_, ?_⟩,
      ⟨performs.coherent permits underway.coherent, fun retaining document delivered => ?_⟩⟩
    · rw [(Operation.completion_narrows now requestId).bindingId]
      exact (underway.installed row found).1
    · simp [Operation.completion, Operation.updated, (Ledger.mem_of_lookup found).2, completable]
    · rw [performs.journal] at delivered
      rcases delivered_append.mp delivered with earlier | ⟨_, _, delivers⟩
      · exact performs.holds (fun _ _ same => by cases same)
          (underway.ends.holds retaining document earlier)
      · cases delivers

/-- Any permitted step of another thread. -/
theorem Ends.interfered {other : Caller Command} {op : Op} {answer : op.Answer} {held : Bool}
    (ends : Ends owner environment caller requestId installationId state)
    (different : other.index ≠ caller.index)
    (performs : Performs environment other op state answer next)
    (permits : Permits owner environment other held state op) :
    Ends owner environment caller requestId installationId next where
  coherent := performs.coherent permits ends.coherent
  holds retaining document delivered := by
    have apart : other ≠ caller := fun same => different (same ▸ rfl)
    rw [performs.journal] at delivered
    rcases delivered_append.mp delivered with earlier | ⟨_, own, _⟩
    · have holds := ends.holds retaining document earlier
      refine performs.holds ?_ holds
      rintro runtimeStatus receipt rfl
      obtain ⟨_, _, _, ⟨_, _, owns⟩ | ⟨reconciling, _⟩⟩ := permits
      · rcases owns with absent | intended
        · obtain ⟨row, found, _⟩ := holds
          rw [absent] at found
          cases found
        · exact apart (ends.coherent.unique intended earlier.intended)
      · exact retaining.unreconciled _ _ _ _ performs.admitted reconciling
    · exact absurd own apart

/-- An own step that changes no row and delivers nothing. -/
theorem Ends.idle {op : Op} {answer : op.Answer} {held : Bool}
    (ends : Ends owner environment caller requestId installationId state)
    (performs : Performs environment caller op state answer next)
    (permits : Permits owner environment caller held state op) (idle : Idle op)
    (undelivered : Event.delivery? owner requestId installationId ⟨caller, op, answer⟩ = none) :
    Ends owner environment caller requestId installationId next where
  coherent := performs.coherent permits ends.coherent
  holds retaining document delivered := by
    rw [performs.journal] at delivered
    rcases delivered_append.mp delivered with earlier | ⟨_, _, delivers⟩
    · exact performs.holds (by rintro _ _ rfl; exact idle) (ends.holds retaining document earlier)
    · rw [undelivered] at delivers
      cases delivers

theorem Ends.stable {held : Bool} :
    (discipline owner environment).Stable caller held
      (Ends owner environment caller requestId installationId) := by
  rintro state next ⟨other, otherHeld, different, _, op, answer, performs, permits⟩ ends
  exact ends.interfered different performs permits

end Steps

end CyreneReactor.PackageRuntime
