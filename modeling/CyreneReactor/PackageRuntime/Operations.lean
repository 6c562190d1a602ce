import CyreneReactor.PackageRuntime.Ledger

namespace CyreneReactor.PackageRuntime

open Relational

/-! What the transactions of the ledger do to its rows.

Request ids are unique, so a ledger is a partial function from request ids to
rows.  A transaction adds one row or rewrites one, and every rewriting advances
the row.
-/

theorem Operation.clash_comm (left right : Operation) :
    left.clash right = right.clash left := by
  rw [Bool.eq_iff_iff]
  simp only [clash, Bool.or_eq_true, Bool.and_eq_true, beq_iff_eq]
  constructor <;>
    · rintro (same | ⟨⟨same, first⟩, second⟩)
      · exact .inl same.symm
      · exact .inr ⟨⟨same.symm, second⟩, first⟩

namespace Ledger

variable {ledger : Ledger} {requestId : String} {row : Operation}

theorem mem_of_lookup (found : ledger.packageRuntimeOperation requestId = some row) :
    row ∈ ledger.rows ∧ row.requestId = requestId := by
  obtain ⟨member, same⟩ := Table.find?_mem found
  exact ⟨member, by simpa using same⟩

theorem lookup_of_mem (member : row ∈ ledger.rows) :
    ledger.packageRuntimeOperation row.requestId = some row := by
  cases found : ledger.packageRuntimeOperation row.requestId with
  | none =>
      have absent := List.find?_eq_none.mp found row member
      simp at absent
  | some other =>
      obtain ⟨otherMember, same⟩ := mem_of_lookup found
      rw [Table.eq_of_clash Operation.clash_comm otherMember member (by simp [Operation.clash, same])]

theorem lookup_modify {change : Operation → Operation} (narrows : Operation.Narrows change) :
    packageRuntimeOperation (ledger.modify change narrows.apart) requestId =
      (ledger.packageRuntimeOperation requestId).map change := by
  simp only [packageRuntimeOperation, Table.find?, Table.modify, List.find?_map]
  congr 2
  funext old
  simp [narrows.requestId]

/-- At most one row of a binding is pending. -/
theorem pending_unique {other : Operation} (member : row ∈ ledger.rows)
    (otherMember : other ∈ ledger.rows) (same : row.bindingId = other.bindingId)
    (pending : row.phase.pending = true) (otherPending : other.phase.pending = true) :
    row = other :=
  Table.eq_of_clash Operation.clash_comm member otherMember
    (by simp [Operation.clash, same, pending, otherPending])

theorem pendingRequest_none {bindingId : String} (none : ledger.pendingRequest bindingId = none)
    (member : row ∈ ledger.rows) (here : row.bindingId = bindingId) :
    row.phase.pending = false := by
  simp only [pendingRequest, Option.map_eq_none_iff, Table.find?, List.find?_eq_none] at none
  simpa [here] using none row member

theorem pendingRequest_some {bindingId : String}
    (found : ledger.pendingRequest bindingId = some requestId) :
    ∃ row, ledger.packageRuntimeOperation requestId = some row ∧ row.bindingId = bindingId ∧
      row.phase.pending = true := by
  simp only [pendingRequest, Option.map_eq_some_iff] at found
  obtain ⟨row, found, rfl⟩ := found
  obtain ⟨member, holds⟩ := Table.find?_mem found
  simp only [Bool.and_eq_true, beq_iff_eq] at holds
  exact ⟨row, lookup_of_mem member, holds⟩

theorem rowcount_eq_one {guard : Operation → Bool} :
    ledger.rowcount requestId guard = 1 ↔
      ∃ row, ledger.packageRuntimeOperation requestId = some row ∧ guard row = true := by
  unfold rowcount
  constructor
  · intro counted
    obtain ⟨row, single⟩ := List.length_eq_one_iff.mp counted
    have chosen := List.mem_filter.mp (single ▸ List.mem_singleton_self row)
    simp only [Bool.and_eq_true, beq_iff_eq] at chosen
    obtain ⟨member, rfl, guarded⟩ := chosen
    exact ⟨row, lookup_of_mem member, guarded⟩
  · rintro ⟨row, found, guarded⟩
    obtain ⟨member, rfl⟩ := mem_of_lookup found
    have apart := ledger.distinct
    generalize ledger.rows = rows at member apart
    clear found
    induction rows with
    | nil => cases member
    | cons head tail ih =>
        obtain ⟨headApart, tailApart⟩ := List.pairwise_cons.mp apart
        rcases List.mem_cons.mp member with rfl | inTail
        · have gone : tail.filter (fun old => old.requestId == row.requestId && guard old) = [] := by
            rw [List.filter_eq_nil_iff]
            intro old inTail chosen
            have distinct := headApart old inTail
            simp only [Bool.and_eq_true, beq_iff_eq] at chosen
            simp [Operation.clash, chosen.1] at distinct
          simp [guarded, gone]
        · have distinct := headApart row inTail
          have different : head.requestId ≠ row.requestId := by
            intro same
            simp [Operation.clash, same] at distinct
          simpa [different] using ih inTail tailApart

end Ledger

/-- A later state of the same row. -/
structure Operation.Advances (old new : Operation) : Prop where
  requestId : new.requestId = old.requestId
  bindingId : new.bindingId = old.bindingId
  packageId : new.packageId = old.packageId
  installationId : new.installationId = old.installationId
  operation : new.operation = old.operation
  phase : old.phase.rank ≤ new.phase.rank
  receipt : old.receipt.isSome = true → new.receipt.isSome = true
  runtimeStatus : old.runtimeStatus.isSome = true → new.runtimeStatus.isSome = true
  completed : old.phase = .completed → new = old

namespace Operation

variable {old middle new : Operation}

theorem Advances.refl (row : Operation) : row.Advances row :=
  ⟨rfl, rfl, rfl, rfl, rfl, Nat.le_refl _, id, id, fun _ => rfl⟩

theorem Advances.trans (first : old.Advances middle) (second : middle.Advances new) :
    old.Advances new where
  requestId := second.requestId.trans first.requestId
  bindingId := second.bindingId.trans first.bindingId
  packageId := second.packageId.trans first.packageId
  installationId := second.installationId.trans first.installationId
  operation := second.operation.trans first.operation
  phase := Nat.le_trans first.phase second.phase
  receipt := fun had => second.receipt (first.receipt had)
  runtimeStatus := fun had => second.runtimeStatus (first.runtimeStatus had)
  completed := fun done => by
    have same := first.completed done
    subst same
    exact second.completed done

/-- A row holds a receipt exactly while it is past the unknown outcome. -/
def Receipted (row : Operation) : Prop :=
  row.receipt.isSome = true ↔ row.phase = .receiptPending ∨ row.phase = .completed

theorem intended_iff {row : Operation} :
    row.intended = true ↔ row.phase = .intent ∧ row.receipt = none := by
  simp [intended]

theorem unreceipted_iff {row : Operation} :
    row.unreceipted = true ↔ (row.phase = .intent ∨ row.phase = .unknown) ∧ row.receipt = none := by
  simp [unreceipted]

theorem completable_iff {row : Operation} :
    row.completable = true ↔ row.phase = .receiptPending ∧ row.receipt.isSome = true := by
  simp [completable]

end Operation

/-- What a transaction leaves of each row. -/
def Ledger.Rewritten (before : Ledger) (change : Operation → Operation) (after : Ledger) : Prop :=
  ∀ requestId, after.packageRuntimeOperation requestId =
    (before.packageRuntimeOperation requestId).map change

/-- A new row, on a binding without a pending one. -/
structure Ledger.Created (before : Ledger) (row : Operation) (after : Ledger) : Prop where
  fresh : before.packageRuntimeOperation row.requestId = none
  idle : ∀ old ∈ before.rows, old.bindingId = row.bindingId → old.phase.pending = false
  here : after.packageRuntimeOperation row.requestId = some row
  elsewhere : ∀ requestId, requestId ≠ row.requestId →
    after.packageRuntimeOperation requestId = before.packageRuntimeOperation requestId

namespace LedgerOp

variable {now : LocalTime} {before after : Ledger} {requestId : String}

theorem run_create {bindingId packageId installationId : String} {answer : Except Failure Operation}
    (ran : (createPackageRuntimeIntent requestId bindingId packageId installationId).run now before =
      (answer, after)) :
    (∃ raised, answer = .error raised ∧ after = before) ∨
    (∃ row, answer = .ok row ∧ after = before ∧
      before.packageRuntimeOperation requestId = some row ∧ row.bindingId = bindingId ∧
      row.packageId = packageId ∧ row.installationId = installationId ∧
      row.operation = "activate") ∨
    (answer = .ok ⟨requestId, bindingId, packageId, installationId, "activate", .intent, none, none,
        now⟩ ∧
      before.Created ⟨requestId, bindingId, packageId, installationId, "activate", .intent, none,
        none, now⟩ after) := by
  simp only [run, Ledger.createPackageRuntimeIntent] at ran
  cases found : before.packageRuntimeOperation requestId with
  | some existing =>
      simp only [found] at ran
      split at ran
      · cases ran
        exact .inl ⟨_, rfl, rfl⟩
      · rename_i same
        cases ran
        simp only [ne_eq, Prod.mk.injEq, not_not] at same
        obtain ⟨binding, package, installation, operation⟩ := same
        exact .inr (.inl ⟨existing, rfl, rfl, rfl, binding, package, installation, operation⟩)
  | none =>
      simp only [found] at ran
      split at ran
      · cases ran
        exact .inl ⟨_, rfl, rfl⟩
      · rename_i idle
        split at ran
        · cases ran
          exact .inl ⟨_, rfl, rfl⟩
        · rename_i next inserted
          cases ran
          obtain ⟨rows, _⟩ := Table.insert?_rows inserted
          refine .inr (.inr ⟨rfl, found, fun old member here => ?_, ?_, fun other different => ?_⟩)
          · exact Ledger.pendingRequest_none (by simpa using idle) member here
          · refine Ledger.lookup_of_mem ?_
            rw [rows]
            exact List.mem_append_right _ (List.mem_singleton_self _)
          · simp [Ledger.packageRuntimeOperation, Table.find?, rows, List.find?_append,
              Ne.symm different]

theorem run_markUnknown {answer : Unit}
    (ran : (markPackageRuntimeUnknown requestId).run now before = (answer, after)) :
    before.Rewritten (Operation.markedUnknown now requestId) after := by
  cases ran
  exact fun _ => Ledger.lookup_modify (Operation.markedUnknown_narrows now requestId)

theorem run_persistReceipt {receipt : Payload} {answer : Except Failure Unit}
    (ran : (persistPackageRuntimeReceipt requestId receipt).run now before = (answer, after)) :
    ((∃ raised, answer = .error raised) ∧ after = before ∧
      ∀ row, before.packageRuntimeOperation requestId = some row → receipt.encodable = true →
        row.unreceipted = false) ∨
    (answer = .ok () ∧ (∃ row, before.packageRuntimeOperation requestId = some row ∧
        row.unreceipted = true) ∧
      before.Rewritten (Operation.receiptPersisted now requestId receipt.document) after) := by
  simp only [run, Ledger.persistPackageRuntimeReceipt] at ran
  split at ran
  · rename_i refused
    cases ran
    exact .inl ⟨⟨_, rfl⟩, rfl, fun row _ encodable => by simp [refused] at encodable⟩
  · split at ran
    · rename_i counted
      cases ran
      refine .inl ⟨⟨_, rfl⟩, rfl, fun row found _ => ?_⟩
      by_contra chosen
      exact counted (Ledger.rowcount_eq_one.mpr ⟨row, found, by simpa using chosen⟩)
    · rename_i counted
      cases ran
      exact .inr ⟨rfl, Ledger.rowcount_eq_one.mp (by simpa using counted),
        fun _ => Ledger.lookup_modify (Operation.receiptPersisted_narrows now requestId _)⟩

theorem run_commit {runtimeStatus receipt : Payload} {answer : Except Failure Unit}
    (ran : (commitPackageRuntimeOutcome requestId runtimeStatus receipt).run now before =
      (answer, after)) :
    ((∃ raised, answer = .error raised) ∧ after = before ∧
      ∀ row, before.packageRuntimeOperation requestId = some row →
        runtimeStatus.encodable = true → receipt.encodable = true → row.phase.pending = false) ∨
    (answer = .ok () ∧ (runtimeStatus.encodable = true ∧ receipt.encodable = true) ∧
      (∃ row, before.packageRuntimeOperation requestId = some row ∧ row.phase.pending = true) ∧
      before.Rewritten
        (Operation.outcomeCommitted now requestId runtimeStatus.document receipt.document) after) := by
  simp only [run, Ledger.commitPackageRuntimeOutcome] at ran
  split at ran
  · rename_i absent
    cases ran
    exact .inl ⟨⟨_, rfl⟩, rfl, fun row found => by rw [absent] at found; cases found⟩
  · rename_i row found
    split at ran
    · rename_i settled
      cases ran
      refine .inl ⟨⟨_, rfl⟩, rfl, fun other same _ _ => ?_⟩
      rw [found, Option.some.injEq] at same
      exact same ▸ settled
    · rename_i pending
      split at ran
      · rename_i refused
        cases ran
        refine .inl ⟨⟨_, rfl⟩, rfl, fun other _ first second => ?_⟩
        rcases refused with refused | refused
        · simp [refused] at first
        · simp [refused] at second
      · rename_i accepted
        cases ran
        simp only [not_or, Bool.not_eq_false] at accepted
        exact .inr ⟨rfl, accepted, ⟨row, found, by simpa using pending⟩,
          fun _ => Ledger.lookup_modify (Operation.outcomeCommitted_narrows now requestId _ _)⟩

theorem run_complete {answer : Except Failure Unit}
    (ran : (completePackageRuntimeOperation requestId).run now before = (answer, after)) :
    ((∃ kind text, answer = .error (.exception kind text)) ∧ after = before) ∨
    (answer = .ok () ∧ (∃ row, before.packageRuntimeOperation requestId = some row ∧
        row.completable = true) ∧
      before.Rewritten (Operation.completion now requestId) after) := by
  simp only [run, Ledger.completePackageRuntimeOperation] at ran
  split at ran
  · cases ran
    exact .inl ⟨⟨_, _, rfl⟩, rfl⟩
  · rename_i counted
    cases ran
    exact .inr ⟨rfl, Ledger.rowcount_eq_one.mp (by simpa using counted),
      fun _ => Ledger.lookup_modify (Operation.completion_narrows now requestId)⟩

/-- What one transaction makes of one row it finds. -/
inductive Rewrites (now : LocalTime) (requestId : String) (old : Operation) :
    LedgerOp → Operation → Prop where
  | kept (op : LedgerOp) : Rewrites now requestId old op old
  | marked (intended : old.intended = true) :
      Rewrites now requestId old (markPackageRuntimeUnknown requestId)
        { old with phase := .unknown, updatedAt := now }
  | receiptPersisted (receipt : Payload) (unreceipted : old.unreceipted = true) :
      Rewrites now requestId old (persistPackageRuntimeReceipt requestId receipt)
        { old with phase := .receiptPending, receipt := some receipt.document, updatedAt := now }
  | outcomeCommitted (runtimeStatus receipt : Payload) (pending : old.phase.pending = true)
      (encodable : runtimeStatus.encodable = true ∧ receipt.encodable = true) :
      Rewrites now requestId old (commitPackageRuntimeOutcome requestId runtimeStatus receipt)
        { old with
          phase := .receiptPending
          runtimeStatus := some runtimeStatus.document
          receipt := some receipt.document
          updatedAt := now }
  | completed (completable : old.completable = true) :
      Rewrites now requestId old (completePackageRuntimeOperation requestId)
        { old with phase := .completed, updatedAt := now }

/-- A request id that has a row keeps it. -/
theorem run_present (op : LedgerOp) {answer : op.Answer} (ran : op.run now before = (answer, after))
    {old : Operation} (found : before.packageRuntimeOperation requestId = some old) :
    ∃ new, after.packageRuntimeOperation requestId = some new ∧
      Rewrites now requestId old op new := by
  have unchanged : after = before → ∃ new, after.packageRuntimeOperation requestId = some new ∧
      Rewrites now requestId old op new := by
    intro same
    subst same
    exact ⟨old, found, .kept op⟩
  have same := (Ledger.mem_of_lookup found).2
  have updated : ∀ {target : String} {guard : Operation → Bool} {change : Operation → Operation},
      before.Rewritten (Operation.updated target guard change) after →
      (target = requestId → guard old = true → Rewrites now requestId old op (change old)) →
      ∃ new, after.packageRuntimeOperation requestId = some new ∧
        Rewrites now requestId old op new := by
    intro target guard change rewritten rewrites
    refine ⟨_, by rw [rewritten, found]; rfl, ?_⟩
    unfold Operation.updated
    split
    · rename_i chosen
      simp only [Bool.and_eq_true, beq_iff_eq, same] at chosen
      exact rewrites chosen.1.symm chosen.2
    · exact .kept op
  cases op with
  | packageRuntimeOperation target | pendingRequest bindingId | latestRequest bindingId =>
      cases ran
      exact unchanged rfl
  | createPackageRuntimeIntent target bindingId packageId installationId =>
      rcases run_create ran with ⟨_, _, same⟩ | ⟨_, _, same, _⟩ | ⟨_, created⟩
      · exact unchanged same
      · exact unchanged same
      · refine ⟨old, ?_, .kept _⟩
        have different : requestId ≠ target := by
          intro here
          subst here
          have absent := created.fresh
          rw [found] at absent
          cases absent
        rw [created.elsewhere requestId different, found]
  | markPackageRuntimeUnknown target =>
      refine updated (run_markUnknown ran) fun here intended => ?_
      subst here
      exact .marked intended
  | persistPackageRuntimeReceipt target receipt =>
      rcases run_persistReceipt ran with ⟨_, same, _⟩ | ⟨_, _, rewritten⟩
      · exact unchanged same
      · refine updated rewritten fun here unreceipted => ?_
        subst here
        exact .receiptPersisted receipt unreceipted
  | commitPackageRuntimeOutcome target runtimeStatus receipt =>
      rcases run_commit ran with ⟨_, same, _⟩ | ⟨_, encodable, _, rewritten⟩
      · exact unchanged same
      · refine updated rewritten fun here pending => ?_
        subst here
        exact .outcomeCommitted runtimeStatus receipt pending encodable
  | completePackageRuntimeOperation target =>
      rcases run_complete ran with ⟨_, same⟩ | ⟨_, _, rewritten⟩
      · exact unchanged same
      · refine updated rewritten fun here completable => ?_
        subst here
        exact .completed completable

/-- A request id without a row gets one from its own intent only. -/
theorem run_absent (op : LedgerOp) {answer : op.Answer} (ran : op.run now before = (answer, after))
    (absent : before.packageRuntimeOperation requestId = none) :
    after.packageRuntimeOperation requestId = none ∨
      ∃ bindingId packageId installationId,
        op = createPackageRuntimeIntent requestId bindingId packageId installationId ∧
        before.Created ⟨requestId, bindingId, packageId, installationId, "activate", .intent, none,
          none, now⟩ after := by
  have rewritten : ∀ {change : Operation → Operation}, before.Rewritten change after →
      after.packageRuntimeOperation requestId = none := by
    intro change rewritten
    rw [rewritten, absent]
    rfl
  cases op with
  | packageRuntimeOperation target | pendingRequest bindingId | latestRequest bindingId =>
      cases ran
      exact .inl absent
  | createPackageRuntimeIntent target bindingId packageId installationId =>
      rcases run_create ran with ⟨_, _, same⟩ | ⟨_, _, same, _⟩ | ⟨_, created⟩
      · exact .inl (same ▸ absent)
      · exact .inl (same ▸ absent)
      · by_cases here : requestId = target
        · subst here
          exact .inr ⟨_, _, _, rfl, created⟩
        · rw [created.elsewhere requestId here]
          exact .inl absent
  | markPackageRuntimeUnknown target => exact .inl (rewritten (run_markUnknown ran))
  | persistPackageRuntimeReceipt target receipt =>
      rcases run_persistReceipt ran with ⟨_, same, _⟩ | ⟨_, _, changed⟩
      · exact .inl (same ▸ absent)
      · exact .inl (rewritten changed)
  | commitPackageRuntimeOutcome target runtimeStatus receipt =>
      rcases run_commit ran with ⟨_, same, _⟩ | ⟨_, _, _, changed⟩
      · exact .inl (same ▸ absent)
      · exact .inl (rewritten changed)
  | completePackageRuntimeOperation target =>
      rcases run_complete ran with ⟨_, same⟩ | ⟨_, _, changed⟩
      · exact .inl (same ▸ absent)
      · exact .inl (rewritten changed)

namespace Rewrites

variable {old new : Operation} {op : LedgerOp}

theorem advances (rewrites : Rewrites now requestId old op new) : old.Advances new := by
  cases rewrites with
  | kept => exact .refl old
  | marked intended =>
      have phase := (Operation.intended_iff.mp intended).1
      exact ⟨rfl, rfl, rfl, rfl, rfl, by simp [phase, Phase.rank], id, id,
        fun done => by simp [phase] at done⟩
  | receiptPersisted receipt unreceipted =>
      refine ⟨rfl, rfl, rfl, rfl, rfl, ?_, fun _ => rfl, id, fun done => ?_⟩
      · rcases (Operation.unreceipted_iff.mp unreceipted).1 with phase | phase <;>
          simp [phase, Phase.rank]
      · rcases (Operation.unreceipted_iff.mp unreceipted).1 with phase | phase <;>
          simp [phase] at done
  | outcomeCommitted runtimeStatus receipt pending encodable =>
      refine ⟨rfl, rfl, rfl, rfl, rfl, ?_, fun _ => rfl, fun _ => rfl, fun done => ?_⟩
      · cases phase : old.phase <;> simp [phase, Phase.rank, Phase.pending] at pending ⊢
      · simp [done, Phase.pending] at pending
  | completed completable =>
      have phase := (Operation.completable_iff.mp completable).1
      exact ⟨rfl, rfl, rfl, rfl, rfl, by simp [phase, Phase.rank], id, id,
        fun done => by simp [phase] at done⟩

theorem receipted (rewrites : Rewrites now requestId old op new) (well : old.Receipted) :
    new.Receipted := by
  cases rewrites with
  | kept => exact well
  | marked intended => simp [Operation.Receipted, (Operation.intended_iff.mp intended).2]
  | receiptPersisted receipt unreceipted => simp [Operation.Receipted]
  | outcomeCommitted runtimeStatus receipt pending encodable => simp [Operation.Receipted]
  | completed completable =>
      simp [Operation.Receipted, (Operation.completable_iff.mp completable).2]

end Rewrites

end LedgerOp

/-- Every row of the earlier ledger is still there, perhaps advanced. -/
def Ledger.Grows (before after : Ledger) : Prop :=
  ∀ requestId old, before.packageRuntimeOperation requestId = some old →
    ∃ new, after.packageRuntimeOperation requestId = some new ∧ old.Advances new

/-- Rows hold receipts exactly while they are past the unknown outcome. -/
def Ledger.WellReceipted (ledger : Ledger) : Prop := ∀ row ∈ ledger.rows, row.Receipted

namespace Ledger

variable {before middle after : Ledger}

theorem Grows.refl (ledger : Ledger) : ledger.Grows ledger :=
  fun _ old found => ⟨old, found, .refl old⟩

theorem Grows.trans (first : before.Grows middle) (second : middle.Grows after) :
    before.Grows after := by
  intro requestId old found
  obtain ⟨next, foundNext, advances⟩ := first requestId old found
  obtain ⟨new, foundNew, further⟩ := second requestId next foundNext
  exact ⟨new, foundNew, advances.trans further⟩

variable {now : LocalTime} {op : LedgerOp} {answer : op.Answer}

theorem wellReceipted_of_run (ran : op.run now before = (answer, after))
    (well : before.WellReceipted) : after.WellReceipted := by
  intro new member
  have found := lookup_of_mem member
  cases known : before.packageRuntimeOperation new.requestId with
  | some old =>
      obtain ⟨other, foundOther, rewrites⟩ := op.run_present ran known
      rw [found, Option.some.injEq] at foundOther
      subst foundOther
      exact rewrites.receipted (well old (mem_of_lookup known).1)
  | none =>
      rcases op.run_absent ran known with absent | ⟨_, _, _, _, created⟩
      · rw [found] at absent
        cases absent
      · have here := created.here
        rw [found, Option.some.injEq] at here
        rw [here]
        simp [Operation.Receipted]

end Ledger

end CyreneReactor.PackageRuntime
