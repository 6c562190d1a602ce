import CyreneReactor.Lifecycle.Outcome

namespace CyreneReactor

open Interaction ReactorService

/-! What every launch comes to, and what becomes of the execution it started.

`_launch` persists a verdict as long as nothing leaves it past its handler.
`Concludes` says so of the engine's answers alone.
-/

variable {environment : Environment} {service : ReactorService}

namespace Exchange

/-- The launch is left past its handler here: nothing that a preparation raises is
caught, nor is an endpoint that cannot be saved, and a failure that cannot be saved
leaves the handler itself. -/
def escapes : Exchange → Bool
  | ⟨_, .prepare _, .error _⟩ => true
  | ⟨_, .prepare _, .ok prepared⟩ =>
      (show Option EngineHandle from prepared).any fun handle => !handle.storable
  | ⟨_, .stop _ _ _ _ _, .error (.serving failure)⟩ => !failure.detailEncodes
  | ⟨_, _, .error (.serving failure)⟩ => !failure.storable
  | ⟨_, _, .error _⟩ => true
  | ⟨_, _, .ok _⟩ => false

/-- The failure of a readback. -/
def unverified? : Exchange → Option ServingEngineFailure
  | ⟨_, .verifyServedModel _ _ _ _, .error (.serving failure)⟩ => some failure
  | _ => none

/-- The execution a preparation announced. -/
def announced? : Exchange → Option EngineHandle
  | ⟨_, .prepare _, .ok prepared⟩ => prepared
  | _ => none

/-- The handle a start returned. -/
def started? : Exchange → Option EngineHandle
  | ⟨_, .start _ _ _ _, .ok handle⟩ => some handle
  | _ => none

/-- The call neither ends a launch nor decides anything in it. -/
structure Harmless (exchange : Exchange) : Prop where
  caught : exchange.escapes = false
  unstarted : exchange.started? = none
  unread : exchange.unverified? = none

end Exchange

/-- What is saved of a handle that was not refused can be: its endpoint, or where it does
not identify itself the references of the failure. -/
def EngineHandle.Kept (version : Option ModelVersionDocument) (handle : EngineHandle) : Prop :=
  (Identified version handle → handle.storable = true) ∧
    (¬Identified version handle → handle.referencesEncode = true)

/-- Nothing leaves the launch past its handler: the clean-up of a full model that was not
verified is a call the engine takes, and what is saved of a handle in the end can be. -/
structure Concludes (calls : List Exchange) : Prop where
  caught : ∀ exchange ∈ calls, exchange.escapes = false
  cleanable : ∀ engine id model node handle,
    ⟨engine, .start id model node none, .ok handle⟩ ∈ calls →
    (∃ exchange ∈ calls, exchange.unverified?.isSome = true) →
    engine.takesModelVersion .stop = true
  kept : ∀ engine id model node version handle,
    ⟨engine, .start id model node version, .ok handle⟩ ∈ calls →
    (∃ exchange ∈ calls, exchange.unverified?.isSome = true) ∨ handle.Kept version

section Calls

variable {calls made : List Exchange}

/-- What is called before the start of a launch says nothing about its end. -/
theorem concludes_append (harmless : ∀ exchange ∈ calls, exchange.Harmless) :
    Concludes (calls ++ made) ↔ Concludes made := by
  have unread : (∃ exchange ∈ calls ++ made, exchange.unverified?.isSome = true) ↔
      ∃ exchange ∈ made, exchange.unverified?.isSome = true := by
    constructor
    · rintro ⟨exchange, member, failed⟩
      rcases List.mem_append.mp member with earlier | later
      · rw [(harmless exchange earlier).unread] at failed
        cases failed
      · exact ⟨exchange, later, failed⟩
    · rintro ⟨exchange, member, failed⟩
      exact ⟨exchange, List.mem_append_right _ member, failed⟩
  have started : ∀ {exchange handle}, exchange.started? = some handle →
      (exchange ∈ calls ++ made ↔ exchange ∈ made) := by
    intro exchange handle started
    refine ⟨fun member => ?_, List.mem_append_right _⟩
    rcases List.mem_append.mp member with earlier | later
    · rw [(harmless exchange earlier).unstarted] at started
      cases started
    · exact later
  constructor
  · rintro ⟨caught, cleanable, kept⟩
    refine ⟨fun exchange member => caught exchange (List.mem_append_right _ member), ?_, ?_⟩
    · intro engine id model node handle member failed
      exact cleanable engine id model node handle ((started rfl).mpr member) (unread.mpr failed)
    · intro engine id model node version handle member
      rw [← unread]
      exact kept engine id model node version handle ((started rfl).mpr member)
  · rintro ⟨caught, cleanable, kept⟩
    refine ⟨fun exchange member => ?_, ?_, ?_⟩
    · rcases List.mem_append.mp member with earlier | later
      · exact (harmless exchange earlier).caught
      · exact caught exchange later
    · intro engine id model node handle member failed
      exact cleanable engine id model node handle ((started rfl).mp member) (unread.mp failed)
    · intro engine id model node version handle member
      rw [unread]
      exact kept engine id model node version handle ((started rfl).mp member)

theorem concludes_nil : Concludes [] := by
  refine ⟨?_, ?_, ?_⟩ <;> simp

theorem concludes_of_harmless (harmless : ∀ exchange ∈ calls, exchange.Harmless) :
    Concludes calls := by
  have concludes := (concludes_append harmless).mpr concludes_nil
  rw [List.append_nil] at concludes
  exact concludes

end Calls

/-- The verdict is persisted. -/
def Verdict.Persisted : Verdict → Prop
  | .aborted _ => False
  | .failed failure => failure.storable = true
  | .verified handle => handle.storable = true

/-- The execution on record once the verdict is settled. -/
def Verdict.evidence (before : Option String) : Verdict → Option String
  | .aborted _ => before
  | .failed failure => if failure.storable then failure.execution.or before else before
  | .verified handle => if handle.storable then some handle.executionRef else before

section Launching

variable {slot new : Slot} {calls : List Exchange} {engine : Engine} {model : ArtifactRef}
variable {version : Option ModelVersionDocument} {verdict : Verdict}

/-- READY and FAILED are the verdicts. -/
def Slot.Settled (slot : Slot) : Prop :=
  slot.deployment.observedState = .ready ∨ slot.deployment.observedState = .failed

theorem Settles.settled {result : Except Raised Deployment}
    (starting : slot.deployment.observedState = .starting)
    (settles : Settles slot verdict new result) : new.Settled ↔ verdict.Persisted := by
  cases settles with
  | aborted => simp [Slot.Settled, starting, Verdict.Persisted]
  | failed unnamed encodes =>
      simp [Slot.Settled, failedDeployment, Verdict.Persisted, storable_of_unnamed unnamed, encodes]
  | failedWithEvidence _ _ _ _ _ encodes =>
      simp [Slot.Settled, failedDeployment, Verdict.Persisted, storable_of_encodes encodes]
  | unfailed unsaved | unready unsaved =>
      simp [Slot.Settled, starting, Verdict.Persisted, unsaved]
  | ready _ _ _ named encodes =>
      simp [Slot.Settled, readyDeployment, Verdict.Persisted, storable_of_named named encodes]

/-- A launch without a verdict leaves the deployment as it was. -/
theorem Settles.unsettled {result : Except Raised Deployment}
    (settles : Settles slot verdict new result) (unsettled : ¬verdict.Persisted) : new = slot := by
  cases settles with
  | aborted | unfailed | unready => rfl
  | failed unnamed encodes =>
      exact absurd ((storable_of_unnamed unnamed).trans encodes) unsettled
  | failedWithEvidence _ _ _ _ _ encodes => exact absurd (storable_of_encodes encodes) unsettled
  | ready _ _ _ named encodes => exact absurd (storable_of_named named encodes) unsettled

theorem Settles.evidence {result : Except Raised Deployment}
    (settles : Settles slot verdict new result) :
    new.executionRef = verdict.evidence slot.executionRef := by
  cases settles with
  | aborted => rfl
  | failed unnamed encodes =>
      simp [Verdict.evidence, storable_of_unnamed unnamed, encodes, execution_of_unnamed unnamed]
  | failedWithEvidence execution address _ _ _ encodes =>
      simp [Verdict.evidence, storable_of_encodes encodes, ServingEngineFailure.execution,
        execution, address]
  | unfailed unsaved | unready unsaved => simp [Verdict.evidence, unsaved]
  | ready _ _ _ named encodes => simp [Verdict.evidence, storable_of_named named encodes]

/-- A readback failed among these calls. -/
def Unverified (calls : List Exchange) : Prop :=
  ∃ exchange ∈ calls, exchange.unverified?.isSome = true

/-- Where an execution was started, the calls after it decide. -/
theorem concludes_started {handle : EngineHandle}
    (unstarted : ∀ exchange ∈ calls, exchange.started? = none) :
    Concludes (⟨engine, startCall slot.deployment model version, .ok handle⟩ :: calls) ↔
      (∀ exchange ∈ calls, exchange.escapes = false) ∧
      (version = none → Unverified calls → engine.takesModelVersion .stop = true) ∧
      (Unverified calls ∨ handle.Kept version) := by
  have unread : Unverified (⟨engine, startCall slot.deployment model version, .ok handle⟩ :: calls) ↔
      Unverified calls := by
    simp [Unverified, startCall, Exchange.unverified?]
  have only : ∀ {engine' : Engine} {id : Uuid} {model' : ArtifactRef} {node : Option NodeRef}
      {version' : Option ModelVersionDocument} {handle' : EngineHandle},
      ⟨engine', .start id model' node version', .ok handle'⟩ ∈
        (⟨engine, startCall slot.deployment model version, .ok handle⟩ :: calls : List Exchange) →
      engine' = engine ∧ version' = version ∧ handle' = handle := by
    intro engine' id model' node version' handle' member
    rcases List.mem_cons.mp member with first | later
    · cases first
      exact ⟨rfl, rfl, rfl⟩
    · exact absurd (unstarted _ later) nofun
  constructor
  · rintro ⟨caught, cleanable, kept⟩
    refine ⟨fun exchange member => caught exchange (List.mem_cons_of_mem _ member), ?_, ?_⟩
    · rintro rfl failed
      exact cleanable engine _ _ _ handle List.mem_cons_self (unread.mpr failed)
    · rw [← unread]
      exact kept engine _ _ _ version handle List.mem_cons_self
  · rintro ⟨caught, cleanable, kept⟩
    refine ⟨fun exchange member => ?_, ?_, ?_⟩
    · rcases List.mem_cons.mp member with rfl | later
      · rfl
      · exact caught exchange later
    · intro engine' id model' node handle' member failed
      obtain ⟨rfl, full, rfl⟩ := only member
      exact cleanable full.symm (unread.mp failed)
    · intro engine' id model' node version' handle' member
      obtain ⟨rfl, rfl, rfl⟩ := only member
      exact kept.imp_left unread.mpr

/-- The clean-up raised nothing that goes past the handler, nor what it cannot save. -/
def Caught (outcome : Except Raised Unit) : Prop :=
  ∀ raised, outcome = .error raised →
    ∃ failure, raised = .serving failure ∧ failure.detailEncodes = true

/-- A clean-up raises past the handler, or it is told what became of the execution. -/
theorem Cleans.caught {handle : EngineHandle} {identity : String} {outcome : Except Raised Unit}
    (cleans : Cleans environment slot engine handle identity version calls outcome) :
    (∀ exchange ∈ calls, exchange.started? = none ∧ exchange.unverified? = none) ∧
      (((∀ exchange ∈ calls, exchange.escapes = false) ∧
          (version = none → engine.takesModelVersion .stop = true)) ↔ Caught outcome) := by
  cases cleans with
  | unsupported composed refused =>
      refine ⟨fun _ member => absurd member List.not_mem_nil, ?_⟩
      have full : version ≠ none := Option.isSome_iff_ne_none.mp composed
      simp [full, Caught, requireModelVersionKeyword, refused]
  | untyped full refused =>
      refine ⟨fun _ member => absurd member List.not_mem_nil, ?_⟩
      simp [full, Caught, refused]
  | @called answer takes admits =>
      refine ⟨by simp [Exchange.started?, Exchange.unverified?], ?_⟩
      rcases answer with (error | failure | kind) | observation <;>
        simp [Exchange.escapes, Caught, takes, Except.map]

theorem Verdict.persisted_mismatched {document : ModelVersionDocument} {handle : EngineHandle}
    {outcome : Except Raised Unit} :
    (Verdict.mismatched document handle outcome).Persisted ↔
      Caught outcome ∧ handle.referencesEncode = true := by
  rcases outcome with (error | failure | kind) | value
  · simp [Verdict.mismatched, Verdict.Persisted, Caught]
  · exact mismatch_storable.trans (by simp [Caught, and_comm])
  · simp [Verdict.mismatched, Verdict.Persisted, Caught]
  · exact mismatch_storable.trans (by simp [Caught])

theorem Verdict.persisted_unverified {failure : ServingEngineFailure}
    {outcome : Except Raised Unit} :
    (Verdict.unverified failure outcome).Persisted ↔
      Caught outcome ∧ failure.storable = true := by
  rcases outcome with (error | cleanup | kind) | value
  · simp [Verdict.unverified, Verdict.Persisted, Caught]
  · exact compensated_storable.trans (by simp [Caught, and_comm])
  · simp [Verdict.unverified, Verdict.Persisted, Caught]
  · simp [Verdict.unverified, Verdict.Persisted, Caught]

theorem Verdict.evidence_mismatched {document : ModelVersionDocument} {handle : EngineHandle}
    {outcome : Except Raised Unit} (before : Option String)
    (persisted : (Verdict.mismatched document handle outcome).Persisted) :
    (Verdict.mismatched document handle outcome).evidence before = some handle.executionRef := by
  rcases outcome with (error | failure | kind) | value
  · cases persisted
  · exact if_pos persisted
  · cases persisted
  · exact if_pos persisted

theorem Verdict.evidence_unverified {failure : ServingEngineFailure}
    {outcome : Except Raised Unit} (before : Option String)
    (persisted : (Verdict.unverified failure outcome).Persisted) :
    (Verdict.unverified failure outcome).evidence before = failure.execution.or before := by
  rcases outcome with (error | cleanup | kind) | value
  · cases persisted
  · exact if_pos persisted
  · cases persisted
  · exact if_pos persisted

theorem Verdict.evidence_unpersisted {before : Option String} (lost : ¬verdict.Persisted) :
    verdict.evidence before = before := by
  cases verdict with
  | aborted raised => rfl
  | failed failure => exact if_neg lost
  | verified handle => exact if_neg lost

/-- The verdict of an attempt is persisted exactly where its answers conclude it. -/
theorem Attempts.persisted (attempts : Attempts environment slot engine model version calls verdict) :
    verdict.Persisted ↔ Concludes calls := by
  cases attempts with
  | unsupported composed refused =>
      refine iff_of_true ?_ concludes_nil
      unfold requireModelVersionKeyword at refused
      split at refused
      · cases refused
      · cases refused
        rfl
  | @refused raised admits =>
      rcases raised with error | failure | kind
      · refine iff_of_false id fun concludes => ?_
        have escaped := concludes.caught _ List.mem_cons_self
        cases escaped
      · cases storable : failure.storable with
        | true =>
            refine iff_of_true storable (concludes_of_harmless fun exchange member => ?_)
            rw [List.mem_singleton.mp member]
            exact ⟨by simp [startCall, Exchange.escapes, storable], rfl, rfl⟩
        | false =>
            refine iff_of_false (by simp [Verdict.ofRaised, Verdict.Persisted, storable])
              fun concludes => ?_
            have escaped := concludes.caught _ List.mem_cons_self
            simp [startCall, Exchange.escapes, storable] at escaped
      · refine iff_of_false id fun concludes => ?_
        have escaped := concludes.caught _ List.mem_cons_self
        cases escaped
  | @mismatched document handle cleanup outcome admits composed other cleans =>
      obtain ⟨quiet, caught⟩ := cleans.caught
      have verified : ¬Unverified cleanup := by
        rintro ⟨exchange, member, failed⟩
        rw [(quiet exchange member).2] at failed
        cases failed
      have mistaken : ¬Identified version handle := fun identified =>
        other (identified document composed)
      rw [concludes_started fun exchange member => (quiet exchange member).1,
        Verdict.persisted_mismatched, ← caught]
      have full : version ≠ none := by simp [composed]
      simp only [verified, false_or, EngineHandle.Kept, mistaken, false_imp_iff, not_false_eq_true,
        true_imp_iff, true_and, and_true, full]
  | @interrupted handle readback raised admits identified verifies uncaught =>
      cases verifies with
      | called offered admits =>
          refine iff_of_false id fun concludes => ?_
          have escaped := concludes.caught _ (List.mem_cons_of_mem _ (List.mem_singleton_self _))
          rcases raised with error | failure | kind
          · cases escaped
          · exact uncaught failure rfl
          · cases escaped
  | @unverified handle readback cleanup failure outcome admits identified verifies cleans =>
      cases verifies with
      | called offered admits =>
          obtain ⟨quiet, caught⟩ := cleans.caught
          rw [concludes_started, Verdict.persisted_unverified, ← caught]
          · simp only [List.singleton_append, Unverified, List.mem_cons, exists_eq_or_imp,
              forall_eq_or_imp, Exchange.unverified?, Exchange.escapes, Option.isSome_some, true_or,
              and_true, forall_const, Bool.not_eq_false']
            exact and_comm.trans and_assoc.symm
          · intro exchange member
            rcases List.mem_cons.mp member with rfl | later
            · rfl
            · exact (quiet exchange later).1
  | @verified handle readback admits identified verifies =>
      cases verifies with
      | absent =>
          rw [concludes_started (by simp)]
          simp [Unverified, EngineHandle.Kept, identified, Verdict.Persisted]
      | called offered admits =>
          rw [concludes_started (by simp [Exchange.started?])]
          simp [Unverified, Exchange.unverified?, Exchange.escapes, EngineHandle.Kept, identified,
            Verdict.Persisted]

/-- Whether the execution `handle` is on record, from what was on record before its
start and from the answers to the calls after it. -/
def Recorded (before : Option String) (handle : EngineHandle) (calls after : List Exchange) : Prop :=
  (Concludes calls ∧ ∀ exchange ∈ after, ∀ failure, exchange.unverified? = some failure →
      failure.execution.or before = some handle.executionRef) ∨
    (¬Concludes calls ∧ before = some handle.executionRef)

theorem Attempts.evidence {first : Exchange} {after : List Exchange} {handle : EngineHandle}
    (attempts : Attempts environment slot engine model version (first :: after) verdict)
    (started : first.started? = some handle) (before : Option String) :
    verdict.evidence before = some handle.executionRef ↔
      Recorded before handle (first :: after) after := by
  have persisted := attempts.persisted
  by_cases kept : verdict.Persisted
  · simp only [Recorded, ← persisted, kept, true_and, not_true_eq_false, false_and, or_false]
    generalize made : first :: after = calls at attempts
    cases attempts with
    | unsupported => cases made
    | refused admits =>
        cases made
        cases started
    | @mismatched document handle' cleanup outcome admits composed other cleans =>
        cases made
        cases started
        rw [Verdict.evidence_mismatched before kept]
        refine iff_of_true rfl fun exchange member failure failed => ?_
        rw [(cleans.caught.1 exchange member).2] at failed
        cases failed
    | interrupted => exact absurd kept id
    | @unverified handle' readback cleanup failure outcome admits identified verifies cleans =>
        cases made
        cases started
        rw [Verdict.evidence_unverified before kept]
        cases verifies with
        | called offered admits =>
            constructor
            · intro recorded exchange member other failed
              rcases List.mem_cons.mp member with rfl | later
              · cases failed
                exact recorded
              · rw [(cleans.caught.1 exchange later).2] at failed
                cases failed
            · exact fun recorded => recorded _ List.mem_cons_self failure rfl
    | @verified handle' readback admits identified verifies =>
        cases made
        cases started
        refine iff_of_true (if_pos kept) fun exchange member failure failed => ?_
        cases verifies with
        | absent => exact absurd member List.not_mem_nil
        | called offered admits =>
            rw [List.mem_singleton.mp member] at failed
            cases failed
  · rw [Verdict.evidence_unpersisted kept]
    simp only [Recorded, ← persisted, kept, false_and, not_false_eq_true, true_and, false_or]

/-- The execution on record when a start is called, from what the calls before it announced. -/
def announcedOr (calls : List Exchange) (before : Option String) : Option String :=
  ((calls.findSome? Exchange.announced?).map EngineHandle.executionRef).or before

/-- Calls that start nothing come before the start. -/
theorem split_started {earlier before after : List Exchange} {first : Exchange}
    {handle : EngineHandle} (unstarted : ∀ exchange ∈ earlier, exchange.started? = none)
    (same : earlier ++ calls = before ++ first :: after) (started : first.started? = some handle) :
    ∃ middle, before = earlier ++ middle ∧ calls = middle ++ first :: after := by
  rcases List.append_eq_append_iff.mp same with ⟨middle, split, rest⟩ | ⟨middle, split, rest⟩
  · exact ⟨middle, split, rest⟩
  · cases middle with
    | nil => exact ⟨[], by rw [split, List.append_nil, List.append_nil], rest.symm⟩
    | cons other middle =>
        obtain ⟨rfl, _⟩ := List.cons.inj rest
        rw [unstarted _ (split ▸ by simp)] at started
        cases started

/-- An attempt makes its start first, and no second one. -/
theorem Attempts.first {before after : List Exchange} {first : Exchange} {handle : EngineHandle}
    (attempts : Attempts environment slot engine model version (before ++ first :: after) verdict)
    (started : first.started? = some handle) : before = [] := by
  have absent : ∀ {start : Exchange} {rest : List Exchange},
      before ++ first :: after = start :: rest →
      (∀ exchange ∈ rest, exchange.started? = none) → before = [] := by
    intro start rest same unstarted
    cases before with
    | nil => rfl
    | cons other before =>
        obtain ⟨_, rfl⟩ := List.cons.inj same
        rw [unstarted first (by simp)] at started
        cases started
  generalize made : before ++ first :: after = calls at attempts
  cases attempts with
  | unsupported => simp at made
  | refused => exact absent made (by simp)
  | mismatched _ _ _ cleans =>
      exact absent made fun exchange member => (cleans.caught.1 exchange member).1
  | interrupted _ _ verifies =>
      refine absent made fun exchange member => ?_
      cases verifies with
      | called =>
          rw [List.mem_singleton.mp member]
          rfl
  | verified _ _ verifies =>
      refine absent made fun exchange member => ?_
      cases verifies with
      | absent => exact absurd member List.not_mem_nil
      | called =>
          rw [List.mem_singleton.mp member]
          rfl
  | unverified _ _ verifies cleans =>
      refine absent made fun exchange member => ?_
      rcases List.mem_append.mp member with reading | cleaning
      · cases verifies with
        | called =>
            rw [List.mem_singleton.mp reading]
            rfl
      · exact (cleans.caught.1 exchange cleaning).1

theorem Prepares.harmless (prepares : Prepares environment service slot calls new (.ok ())) :
    (∀ exchange ∈ calls, exchange.Harmless) ∧
      new.executionRef = announcedOr calls slot.executionRef := by
  cases prepares with
  | nothing => exact ⟨fun exchange member => List.mem_singleton.mp member ▸ ⟨rfl, rfl, rfl⟩, rfl⟩
  | pending _ _ _ _ _ named encodes =>
      refine ⟨fun exchange member => ?_, rfl⟩
      rw [List.mem_singleton.mp member]
      exact ⟨by simp [Exchange.escapes, storable_of_named named encodes], rfl, rfl⟩

/-- A preparation that raises leaves the launch past its handler. -/
theorem Prepares.escaped {raised : Raised}
    (bound : ∃ engine, service.engineFor slot.deployment.servingBindingId = .ok engine)
    (prepares : Prepares environment service slot calls new (.error raised)) :
    ¬Concludes calls := by
  intro concludes
  have caught := concludes.caught
  cases prepares with
  | unbound unbound =>
      obtain ⟨engine, bound⟩ := bound
      rw [bound] at unbound
      cases unbound
  | refused =>
      have escaped := caught _ List.mem_cons_self
      cases escaped
  | unsaved _ _ unsaved =>
      have escaped := caught _ List.mem_cons_self
      simp [Exchange.escapes, unsaved] at escaped

/-- A launch is settled exactly where its answers conclude it, and is STARTING else. -/
theorem Launches.settled {result : Except Raised Deployment}
    (launches : Launches environment service slot calls new result)
    (starting : slot.deployment.observedState = .starting)
    (bound : ∃ engine, service.engineFor slot.deployment.servingBindingId = .ok engine) :
    (new.Settled ↔ Concludes calls) ∧
      (new.deployment.observedState = .starting ↔ ¬Concludes calls) := by
  cases launches with
  | unprepared prepares =>
      have escaped := prepares.escaped bound
      obtain rfl := prepares.unchanged
      simp [Slot.Settled, starting, escaped]
  | @launched prepared _ calls attempt engine model verdict result prepares _ _ attempts settles =>
      have still : prepared.deployment.observedState = .starting := prepares.kept.1.trans starting
      rw [concludes_append prepares.harmless.1, ← attempts.persisted]
      have settled := settles.settled still
      refine ⟨settled, fun starting' persisted => ?_, fun lost => ?_⟩
      · rcases settled.mpr persisted with ready | failed
        · rw [starting'] at ready
          cases ready
        · rw [starting'] at failed
          cases failed
      · rw [settles.unsettled lost]
        exact still

/-- What a launch leaves on record of the execution its start returned. -/
theorem Launches.evidence {result : Except Raised Deployment} {before after : List Exchange}
    {first : Exchange} {handle : EngineHandle}
    (launches : Launches environment service slot (before ++ first :: after) new result)
    (started : first.started? = some handle) :
    new.executionRef = some handle.executionRef ↔
      Recorded (announcedOr before slot.executionRef) handle (before ++ first :: after) after := by
  generalize made : before ++ first :: after = calls at launches
  cases launches with
  | unprepared prepares =>
      have unstarted : first.starts = false := by
        refine prepares.unstarted first ?_
        rw [← made]
        simp
      obtain ⟨_, call, answer⟩ := first
      cases call <;> first | cases started | cases unstarted
  | @launched prepared _ calls attempt engine model verdict result prepares _ _ attempts settles =>
      obtain ⟨harmless, evidence⟩ := prepares.harmless
      obtain ⟨middle, rfl, rfl⟩ :=
        split_started (fun exchange member => (harmless exchange member).unstarted) made.symm started
      obtain rfl := attempts.first started
      rw [settles.evidence, evidence, List.append_nil, attempts.evidence started]
      simp only [Recorded, List.nil_append, concludes_append harmless]

/-- A stop that returns was answered as it asked, and keeps what is on record. -/
theorem Stops.harmless {deployment : Deployment}
    (stops : Stops environment service slot calls new (.ok deployment)) :
    (∀ exchange ∈ calls, exchange.Harmless ∧ exchange.announced? = none) ∧
      new.executionRef = slot.executionRef := by
  cases stops with
  | already => exact ⟨fun exchange member => absurd member List.not_mem_nil, rfl⟩
  | released running begins releases =>
      refine ⟨fun exchange member => ?_, rfl⟩
      generalize outcome : (Except.ok () : Except Raised Unit) = returned at releases
      cases releases with
      | nothing | unbound | unsupported => exact absurd member List.not_mem_nil
      | @called _ _ _ _ answer _ _ _ _ _ admits =>
          rw [List.mem_singleton.mp member]
          match answer, outcome with
          | .ok observation, _ => exact ⟨⟨rfl, rfl, rfl⟩, rfl⟩

end Launching

end CyreneReactor
