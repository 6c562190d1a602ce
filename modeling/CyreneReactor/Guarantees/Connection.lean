import CyreneReactor.Data.Outcome
import CyreneReactor.Guarantees.Receipts
import CyreneReactor.PackageRuntime.Engine
import CyreneReactor.PackageRuntime.Script

namespace CyreneReactor.PackageRuntime

open Interaction

/-! Whether a runtime that was activated can be connected.

The owner and the engine check the same status document with different code.
-/

section Checks

variable {owner : Owner} {status : Document} {installationId bindingId : String}

theorem requiredString_ok {field value : String} (present : text? status field = some value)
    (some : value ≠ "") (short : value.length ≤ 2048)
    (clean : ∀ character ∈ value.toList, isControl character = false) :
    requiredString status field = .ok value := by
  have inside : value.toList.any isControl = false := by
    rw [List.any_eq_false]
    intro character member
    simp [clean character member]
  have fits : ¬ 2048 < value.length := by omega
  simp [requiredString, present, some, fits, inside]

theorem text_of_reads {key text : String} (read : reads status key text = true) :
    text? status key = some text := by
  unfold reads at read
  unfold text?
  split at read
  · rename_i found present
    simp only [beq_iff_eq] at read
    simp [read]
  · cases read

/-- The characters of ids, ports and references are printable. -/
theorem not_control {character : Char} (control : isControl character = true) :
    (character.isAlphanum || character.isLower || character.isDigit || character == '_' ||
      character == '.' || character == '-' || character == ':' || character == '/') = false := by
  have table : ∀ code < 128, isControl (Char.ofNat code) = true →
      ((Char.ofNat code).isAlphanum || (Char.ofNat code).isLower || (Char.ofNat code).isDigit ||
        Char.ofNat code == '_' || Char.ofNat code == '.' || Char.ofNat code == '-' ||
        Char.ofNat code == ':' || Char.ofNat code == '/') = false := by
    decide
  have bound : character.toNat < 128 := by
    simp only [isControl, Bool.or_eq_true, decide_eq_true_eq, beq_iff_eq] at control
    omega
  have entry := table character.toNat bound
  rw [Char.ofNat_toNat] at entry
  exact entry control

/-- A binding id is short and printable. -/
theorem requiredString_of_bindingId {field : String}
    (present : text? status field = some installationId)
    (binding : isBindingId installationId = true) :
    requiredString status field = .ok installationId := by
  unfold isBindingId at binding
  split at binding
  · cases binding
  · rename_i first rest chars
    simp only [Bool.and_eq_true, decide_eq_true_eq, List.all_eq_true] at binding
    obtain ⟨⟨⟨alphanumeric, _⟩, bound⟩, others⟩ := binding
    have count := congrArg List.length chars
    rw [String.length_toList, List.length_cons] at count
    apply requiredString_ok present
    · intro empty
      simp [empty] at chars
    · omega
    · intro character member
      by_contra control
      have outside := not_control (Bool.not_eq_false _ ▸ control)
      rw [chars] at member
      simp only [Bool.or_eq_false_iff] at outside
      rcases List.mem_cons.mp member with rfl | later
      · simp [outside] at alphanumeric
      · have inside := others character later
        simp [outside] at inside

theorem requiredString_of_connectionRef {field connectionRef controlUrl : String}
    (present : text? status field = some connectionRef)
    (canonical : controlUrlFromConnectionRef connectionRef = some controlUrl) :
    requiredString status field = .ok connectionRef := by
  unfold controlUrlFromConnectionRef at canonical
  simp only at canonical
  split at canonical
  · split at canonical
    · cases canonical
    · rename_i port _
      split at canonical
      · rename_i valid
        obtain ⟨_, bound, spelling⟩ := valid
        have digits : (toString port).length ≤ 5 := by
          rw [Nat.toString_eq_ofList_toDigits, String.length_ofList]
          exact (Nat.length_toDigits_le_iff (by decide) (by decide)).mpr (by omega)
        have front : connectionRefPrefix.length = 27 := by decide
        have reference : ∀ character ∈ connectionRefPrefix.toList,
            (character.isAlphanum || character.isLower || character.isDigit ||
              character == '_' || character == '.' || character == '-' || character == ':' ||
              character == '/') = true :=
          List.all_eq_true.mp (by decide)
        have length : connectionRef.length = 27 + (toString port).length := by
          rw [spelling, String.length_append, front]
        apply requiredString_ok present
        · intro empty
          simp [empty] at length
          omega
        · omega
        · intro character member
          by_contra control
          have outside := not_control (Bool.not_eq_false _ ▸ control)
          rw [spelling, String.toList_append] at member
          rcases List.mem_append.mp member with early | late
          · rw [reference character early] at outside
            cases outside
          · rw [Nat.toString_eq_ofList_toDigits, String.toList_ofList] at late
            have digit := Nat.isDigit_of_mem_toDigits (by decide) (by decide) late
            simp [digit] at outside
      · cases canonical
  · cases canonical

/-- What the owner has found out about a status it accepts. -/
theorem validateActual_ok (accepted : owner.validateActual status installationId = .ok ()) :
    reads status "binding_id" owner.bindingId = true ∧
      reads status "installation_id" installationId = true ∧
      reads status "state" "RUNNING" = true ∧
      ∃ connectionRef controlUrl, text? status "connection_ref" = some connectionRef ∧
        controlUrlFromConnectionRef connectionRef = some controlUrl := by
  unfold Owner.validateActual at accepted
  split at accepted
  · cases accepted
  · rename_i same
    split at accepted
    · cases accepted
    · rename_i connectionRef present
      split at accepted
      · cases accepted
      · split at accepted
        · cases accepted
        · rename_i canonical
          simp only [not_or, Bool.not_eq_false] at same
          cases url : controlUrlFromConnectionRef connectionRef with
          | none => simp [url] at canonical
          | some controlUrl =>
              exact ⟨same.1, same.2.1, same.2.2, connectionRef, controlUrl, present, url⟩

/-- The engine goes on with a status that the owner accepts exactly if the installation id is
one for the engine too, and the generation is a positive integer. -/
theorem admitStatus_iff (accepted : owner.validateActual status installationId = .ok ()) :
    (∃ controlUrl, admitStatus owner.bindingId status = .ok (installationId, controlUrl)) ↔
      isBindingId installationId = true ∧
        isPositiveInt (member? status "generation") = true := by
  obtain ⟨binding, installation, running, connectionRef, url, present, canonical⟩ :=
    validateActual_ok accepted
  have known := text_of_reads installation
  have reference := requiredString_of_connectionRef present canonical
  constructor
  · intro admitted
    obtain ⟨controlUrl, admitted⟩ := admitted
    obtain ⟨identity, valid, rest⟩ := Outcome.bind_eq_ok.mp admitted
    obtain ⟨read, identified, valid⟩ := Outcome.bind_eq_ok.mp valid
    have same : read = installationId := by
      unfold requiredString at identified
      rw [known] at identified
      simp only at identified
      split at identified
      · cases identified
      · cases identified
        rfl
    split at valid
    · cases valid
    · rename_i passes
      simp only [not_or, Bool.not_eq_false, same] at passes
      exact passes.2.2
  · intro valid
    obtain ⟨isId, generation⟩ := valid
    have identity := requiredString_of_bindingId known isId
    refine ⟨url, Outcome.bind_eq_ok.mpr ⟨installationId, ?_, ?_⟩⟩
    · refine Outcome.bind_eq_ok.mpr ⟨installationId, identity, ?_⟩
      simp [binding, running, isId, generation, reference]
    · refine Outcome.bind_eq_ok.mpr ⟨connectionRef, reference, ?_⟩
      rw [canonical]
      rfl

end Checks

section Runs

variable {owner : Owner} {environment : Environment} {ledger : Ledger}

/-- The stored statuses of the binding were accepted. -/
def StatusesAccepted (owner : Owner) (ledger : Ledger) : Prop :=
  ∀ row ∈ ledger.rows, row.bindingId = owner.bindingId →
    ∀ status, row.runtimeStatus = some status →
      owner.validateActual status row.installationId = .ok ()

theorem StatusesAccepted.step {caller : Caller Command} {held : Bool} {op : Op}
    {state next : State} {answer : op.Answer}
    (performs : Performs environment caller op state answer next)
    (permits : Permits owner environment caller held state op)
    (accepted : StatusesAccepted owner state.ledger) : StatusesAccepted owner next.ledger := by
  intro new member binding status stored
  have foundNew := Ledger.lookup_of_mem member
  cases known : state.ledger.packageRuntimeOperation new.requestId with
  | none =>
      rcases performs.absent known with absent | ⟨_, _, _, now, rfl, created⟩
      · rw [foundNew] at absent
        cases absent
      · have here := created.here
        rw [foundNew, Option.some.injEq] at here
        rw [here] at stored
        cases stored
  | some old =>
      obtain ⟨other, foundOther, change⟩ := performs.present known
      rw [foundNew, Option.some.injEq] at foundOther
      subst foundOther
      have before := accepted old (Ledger.mem_of_lookup known).1
      rcases change with rfl | ⟨now, transaction, rfl, rewrites⟩
      · exact before binding status stored
      · cases rewrites with
        | kept => exact before binding status stored
        | marked | receiptPersisted | completed => exact before binding status stored
        | outcomeCommitted runtimeStatus receipt =>
            obtain ⟨installationId, installed, valid, _⟩ := permits
            cases stored
            rw [(installed old known).2]
            exact valid

theorem statusesAccepted_of_reachable (receipted : ledger.WellReceipted)
    (accepted : StatusesAccepted owner ledger) {pool : Pool (owner.system environment)}
    (reached : Reachable (State.opened ledger) pool) :
    StatusesAccepted owner (State.ledger pool.state) := by
  induction reached with
  | refl => exact accepted
  | tail before step ih =>
      rcases (Lawful.of_reachable receipted before).permitted step with
        same | ⟨_, _, _, _, performs, permits⟩
      · rw [same]
        exact ih
      · exact ih.step performs permits

end Runs

/-- What an activation accepts, the engine can be built on exactly if the installation id is
written like a binding id and the generation is a positive integer; and so it is with every
status that any run stores. -/
theorem activated_runtime_connects_iff (owner : Owner) :
    (∀ requestId installationId status,
      owner.checkArguments requestId installationId = .ok () →
      owner.validateActual status installationId = .ok () →
      ((∃ controlUrl, admitStatus owner.bindingId status = .ok (installationId, controlUrl)) ↔
        isBindingId installationId = true ∧
          isPositiveInt (member? status "generation") = true)) ∧
    ∀ (environment : Environment) (ledger : Ledger) (pool : Pool (owner.system environment)),
      ledger.WellReceipted → StatusesAccepted owner ledger →
      Reachable (State.opened ledger) pool →
      ∀ row ∈ (State.ledger pool.state).rows, row.bindingId = owner.bindingId →
        ∀ status, row.runtimeStatus = some status →
          ((∃ controlUrl,
              admitStatus owner.bindingId status = .ok (row.installationId, controlUrl)) ↔
            isBindingId row.installationId = true ∧
              isPositiveInt (member? status "generation") = true) := by
  refine ⟨fun _ _ _ _ accepted => admitStatus_iff accepted, ?_⟩
  intro environment ledger pool receipted accepted reached row member binding status stored
  exact admitStatus_iff
    (statusesAccepted_of_reachable receipted accepted reached row member binding status stored)

/-- An activation of the installation `install-A` completes, and the engine refuses its status,
which lacks nothing. -/
theorem activated_runtime_refused :
    ∃ status : Document,
      Sample.owner.checkArguments "request" "install-A" = .ok () ∧
        Sample.owner.validateActual status "install-A" = .ok () ∧
        isPositiveInt (member? status "generation") = true ∧
        admitStatus Sample.owner.bindingId status = .error ⟨"PACKAGE_RUNTIME_NOT_RUNNING"⟩ := by
  refine ⟨[("binding_id", .str "binding"), ("installation_id", .str "install-A"),
    ("generation", .int 3), ("state", .str "RUNNING"),
    ("connection_ref", .str "cyrene-http-v1://127.0.0.1:8000")], ?_, ?_, ?_, ?_⟩
  · rfl
  · rfl
  · rfl
  · rfl

end CyreneReactor.PackageRuntime
