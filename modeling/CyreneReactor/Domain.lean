import Mathlib.Algebra.Group.Nat.Defs
import Mathlib.Data.Rat.Defs

namespace CyreneReactor

/-! The boundary records of the Product: deployments, endpoints, and what a
serving engine returns.  Validators that constrain several fields together are
fields of the record they validate, so a record that fails them does not exist.
-/

/-- A decoded JSON document.  Object members keep their order; a finite float is
the rational it denotes. -/
inductive JsonValue where
  | null
  | bool (value : Bool)
  | int (value : Int)
  | float (value : Rat)
  | str (value : String)
  | arr (items : List JsonValue)
  | obj (members : List (String × JsonValue))
deriving Repr, Inhabited

/-- `dict.get` on the members of an object. -/
def JsonValue.member? (members : List (String × JsonValue)) (key : String) : Option JsonValue :=
  (members.find? fun member => member.1 == key).map Prod.snd

structure Uuid where
  value : BitVec 128
deriving DecidableEq, Repr

private def hexDigits (value : Nat) : Nat → List Char
  | 0 => []
  | count + 1 => hexDigits (value / 16) count ++ [Nat.digitChar (value % 16)]

/-- `str(uuid)`: the 8-4-4-4-12 lower-case hexadecimal form. -/
def Uuid.str (id : Uuid) : String :=
  let digits := hexDigits id.value.toNat 32
  let part := fun first count => String.ofList ((digits.drop first).take count)
  part 0 8 ++ "-" ++ part 8 4 ++ "-" ++ part 12 4 ++ "-" ++ part 16 4 ++ "-" ++ part 20 12

private theorem length_hexDigits (value count : Nat) : (hexDigits value count).length = count := by
  induction count generalizing value with
  | zero => rfl
  | succ count ih => simp [hexDigits, ih]

theorem Uuid.length_str (id : Uuid) : id.str.length = 36 := by
  rw [← String.length_toList]
  simp [Uuid.str, length_hexDigits]

private theorem digitChar_inj : ∀ left < 16, ∀ right < 16,
    Nat.digitChar left = Nat.digitChar right → left = right := by decide

private theorem hexDigits_inj {left right count : Nat} (small : left < 16 ^ count)
    (small' : right < 16 ^ count) (same : hexDigits left count = hexDigits right count) :
    left = right := by
  induction count generalizing left right with
  | zero => omega
  | succ count ih =>
      have bound : ∀ value, value < 16 ^ (count + 1) → value / 16 < 16 ^ count := by omega
      obtain ⟨leading, last⟩ := List.append_inj' same rfl
      have upper := ih (bound left small) (bound right small') leading
      have lower := digitChar_inj (left % 16) (Nat.mod_lt _ (by decide)) (right % 16)
        (Nat.mod_lt _ (by decide)) (List.cons.inj last).1
      omega

/-- Digits are read back from where they stand between the dashes. -/
private theorem eq_of_parts {left right : List Char} (long : left.length = 32)
    (long' : right.length = 32) (first : left.take 8 = right.take 8)
    (second : (left.drop 8).take 4 = (right.drop 8).take 4)
    (third : (left.drop 12).take 4 = (right.drop 12).take 4)
    (fourth : (left.drop 16).take 4 = (right.drop 16).take 4)
    (fifth : (left.drop 20).take 12 = (right.drop 20).take 12) : left = right := by
  have parts : ∀ digits : List Char, digits.length = 32 →
      digits = digits.take 8 ++ ((digits.drop 8).take 4 ++ ((digits.drop 12).take 4 ++
        ((digits.drop 16).take 4 ++ (digits.drop 20).take 12))) := by
    intro digits long
    have last : (digits.drop 20).take 12 = digits.drop 20 := List.take_of_length_le (by simp [long])
    rw [last, show digits.drop 20 = (digits.drop 16).drop 4 by simp, List.take_append_drop,
      show digits.drop 16 = (digits.drop 12).drop 4 by simp, List.take_append_drop,
      show digits.drop 12 = (digits.drop 8).drop 4 by simp, List.take_append_drop,
      List.take_append_drop]
  rw [parts left long, parts right long', first, second, third, fourth, fifth]

/-- Different ids are written differently. -/
theorem Uuid.str_injective : Function.Injective Uuid.str := by
  intro left right same
  have chars := congrArg String.toList same
  simp only [Uuid.str, String.toList_append, String.toList_ofList] at chars
  have long := length_hexDigits left.value.toNat 32
  have long' := length_hexDigits right.value.toNat 32
  generalize digits : hexDigits left.value.toNat 32 = mine at chars long
  generalize digits' : hexDigits right.value.toNat 32 = other at chars long'
  obtain ⟨chars, fifth⟩ := List.append_inj' chars (by simp [long, long'])
  obtain ⟨chars, fourth⟩ := List.append_inj' (List.append_inj' chars rfl).1 (by simp [long, long'])
  obtain ⟨chars, third⟩ := List.append_inj' (List.append_inj' chars rfl).1 (by simp [long, long'])
  obtain ⟨chars, second⟩ := List.append_inj' (List.append_inj' chars rfl).1 (by simp [long, long'])
  have first := (List.append_inj' chars rfl).1
  have same := eq_of_parts long long' first second third fourth fifth
  rw [← digits, ← digits'] at same
  have small : ∀ id : Uuid, id.value.toNat < 16 ^ 32 := fun id => id.value.isLt
  have value := hexDigits_inj (small left) (small right) same
  obtain ⟨left⟩ := left
  obtain ⟨right⟩ := right
  exact congrArg Uuid.mk (BitVec.eq_of_toNat_eq value)

private theorem mem_hexDigits {value count : Nat} {char : Char}
    (member : char ∈ hexDigits value count) : ∃ digit < 16, char = Nat.digitChar digit := by
  induction count generalizing value with
  | zero => cases member
  | succ count ih =>
      rcases List.mem_append.mp member with earlier | last
      · exact ih earlier
      · exact ⟨value % 16, Nat.mod_lt _ (by decide), List.mem_singleton.mp last⟩

/-- An id is written in digits and dashes. -/
theorem Uuid.mem_str {id : Uuid} {char : Char} (member : char ∈ id.str.toList) :
    char = '-' ∨ ∃ digit < 16, char = Nat.digitChar digit := by
  simp only [Uuid.str, String.toList_append, String.toList_ofList, List.mem_append] at member
  have part : ∀ first count,
      char ∈ ((hexDigits id.value.toNat 32).drop first).take count →
      ∃ digit < 16, char = Nat.digitChar digit := fun first count inside =>
    mem_hexDigits (List.mem_of_mem_drop (List.mem_of_mem_take inside))
  have dash : char ∈ "-".toList → char = '-' := by simp
  grind

/-- A timezone-aware UTC timestamp, as `utc_now` returns it. -/
structure Datetime where
  year : Nat
  month : Nat
  day : Nat
  hour : Nat
  minute : Nat
  second : Nat
  microsecond : Nat
deriving DecidableEq, Repr

def padded (width value : Nat) : String :=
  let digits := toString value
  String.ofList (List.replicate (width - digits.length) '0') ++ digits

/-- `datetime.isoformat`, which leaves a zero microsecond out. -/
def Datetime.isoformat (time : Datetime) : String :=
  padded 4 time.year ++ "-" ++ padded 2 time.month ++ "-" ++ padded 2 time.day ++ "T" ++
    padded 2 time.hour ++ ":" ++ padded 2 time.minute ++ ":" ++ padded 2 time.second ++
    (if time.microsecond = 0 then "" else "." ++ padded 6 time.microsecond) ++ "+00:00"

inductive DesiredState where
  | active
  | stopped
deriving DecidableEq, Repr

inductive ObservedState where
  | starting
  | ready
  | degraded
  | failed
  | stopping
  | stopped
deriving DecidableEq, Repr

inductive DeploymentPhase where
  | queued
  | importing
  | loading
  | probing
  | ready
  | stopping
  | released
  | failed
deriving DecidableEq, Repr

structure DeploymentEvent where
  sequence : Nat
  phase : DeploymentPhase
  message : String
  occurredAt : Datetime
  failureCode : Option String
deriving DecidableEq, Repr

inductive ModelComposition where
  | fullModel
  | basePlusLora
deriving DecidableEq, Repr

def ModelComposition.value : ModelComposition → String
  | .fullModel => "FULL_MODEL"
  | .basePlusLora => "BASE_PLUS_LORA"

inductive EndpointState where
  | provisioning
  | ready
  | unhealthy
  | retired
deriving DecidableEq, Repr

inductive ArtifactKind where
  | generic
  | model
  | dataset
  | checkpoint
  | trainingSpec
  | metrics
  | merged
  | quantized
  | report
deriving DecidableEq, Repr

structure ArtifactRef where
  uri : String
  digest : String
  sizeBytes : Nat
  kind : ArtifactKind
  manifestDigest : Option String
deriving DecidableEq, Repr

/-- A canonical Yield ModelVersion.  The document is opaque Product state except
for the two members `canonical_model_version` checks itself. -/
structure ModelVersionDocument where
  members : List (String × JsonValue)
  id : String
  composition : ModelComposition
  hasId : JsonValue.member? members "id" = some (.str id)
  hasComposition : JsonValue.member? members "composition" = some (.str composition.value)

structure ProductFailure where
  code : String
  message : String
  retryable : Bool
deriving DecidableEq, Repr

structure NodeRef where
  nodeId : String
  nodeEpoch : Nat
deriving DecidableEq, Repr

/-- What `validate_model_identity` leaves of the three model fields it checks
together: without a version only a full model with its artifact passes, and a
version fixes the composition and projects the artifact. -/
def ModelIdentityValidated (artifact : Option ArtifactRef) (composition : ModelComposition)
    (version : Option ModelVersionDocument) : Prop :=
  artifact.isSome ∧
    match version with
    | none => composition = .fullModel
    | some document => document.composition = composition

structure CreateDeploymentRequest where
  name : String
  modelArtifact : Option ArtifactRef
  composition : ModelComposition
  modelVersion : Option ModelVersionDocument
  servingBindingId : String
  nodeRef : Option NodeRef
  validated : ModelIdentityValidated modelArtifact composition modelVersion

structure Deployment where
  id : Uuid
  name : String
  modelArtifact : Option ArtifactRef
  composition : ModelComposition
  modelVersion : Option ModelVersionDocument
  desiredState : DesiredState
  observedState : ObservedState
  servingBindingId : String
  nodeRef : Option NodeRef
  endpointId : Option Uuid
  failure : Option ProductFailure
  createdAt : Datetime
  updatedAt : Datetime
  resourceVersion : Nat
  validated : ModelIdentityValidated modelArtifact composition modelVersion

/-- An addressable serving surface.  A model name, when there is one, is not empty. -/
structure Endpoint where
  id : Uuid
  deploymentId : Uuid
  state : EndpointState
  url : String
  model : Option String
  createdAt : Datetime
  updatedAt : Datetime
  resourceVersion : Nat
  named : model ≠ some ""
deriving DecidableEq

/-- Opaque evidence a serving engine returns.  Its fields carry no constraint, so
an engine may well return an empty model name, or texts with lone surrogates.  These
cannot be saved; the flags say which texts have none. -/
structure EngineHandle where
  executionRef : String
  endpointUrl : String
  model : Option String
  modelVersionId : Option String
  referencesEncode : Bool := true
  modelEncodes : Bool := true
deriving DecidableEq, Repr

/-- The texts of the handle that are saved can be encoded. -/
def EngineHandle.encodes (handle : EngineHandle) : Bool :=
  handle.referencesEncode && handle.modelEncodes

structure EngineObservation where
  ready : Bool
  detail : String
deriving DecidableEq, Repr

structure ReactorProductError where
  code : String
  title : String
  detail : String
  status : Nat
  retryable : Bool := false
  resourceRef : Option String := none
deriving DecidableEq, Repr

/-- The flags say which texts have no lone surrogates, as in an `EngineHandle`. -/
structure ServingEngineFailure where
  detail : String
  executionRef : Option String := none
  endpointUrl : Option String := none
  status : Nat := 422
  retryable : Bool := false
  detailEncodes : Bool := true
  referencesEncode : Bool := true
deriving DecidableEq, Repr

/-- Exception classes outside the Product's own two. -/
inductive ExceptionKind where
  | valueError
  | keyError
  | typeError
  | indexError
  | attributeError
  | httpError
  | invalidUrl
  | recursionError
  | integrityError
deriving DecidableEq, Repr

/-- Everything a command or a port call can raise. -/
inductive Raised where
  | product (error : ReactorProductError)
  | serving (failure : ServingEngineFailure)
  | other (kind : ExceptionKind)
deriving DecidableEq, Repr

/-- `Endpoint(...)`: validation rejects an empty model name. -/
def Endpoint.create (id deploymentId : Uuid) (state : EndpointState) (url : String)
    (model : Option String) (createdAt updatedAt : Datetime) (resourceVersion : Nat) :
    Except Raised Endpoint :=
  if named : model ≠ some "" then
    .ok { id, deploymentId, state, url, model, createdAt, updatedAt, resourceVersion, named }
  else
    .error (.other .valueError)

end CyreneReactor
