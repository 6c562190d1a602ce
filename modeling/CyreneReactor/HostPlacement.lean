import CyreneReactor.Data.Outcome
import Mathlib.Algebra.Group.Nat.Defs

namespace CyreneReactor.HostPlacement

/-! The host placement adapter: it takes the facts of a host to the platform's planner.

The contract crates are outside: how they number a resource's state, what they validate, and
the planner. A map of a message is a partial function.
-/

structure Identity where
  id : String
  generation : Nat
deriving DecidableEq, Repr

structure Capability where
  id : String
  revision : Nat
  properties : String → Option String

structure Quantity where
  value : Nat
  unit : String
deriving DecidableEq, Repr

structure ProtoLink where
  peer : Option Identity
  kind : String
  properties : String → Option String

structure ProtoResource where
  identity : Option Identity
  provider : Option Identity
  resourceClass : String
  capabilities : List Capability
  capacity : String → Option Quantity
  attributes : String → Option String
  state : Int
  reasonCode : String
  summary : String
  links : List ProtoLink

inductive ProtoResourceState where
  | unspecified
  | ready
  | degraded
  | unavailable
deriving DecidableEq, Repr

structure NodeIdentity where
  nodeId : String
  nodeEpoch : Nat
deriving DecidableEq, Repr

structure Timestamp where
  seconds : Int
  nanos : Int

structure KernelCapabilities where
  node : Option NodeIdentity
  observedAt : Option Timestamp
  inventoryGeneration : Nat
  resources : List ProtoResource

/-- Of an artifact, only the digest is read. -/
structure ArtifactRef where
  digest : String

structure Input where
  nodeId : String
  nodeEpoch : Nat
  minimumMemoryBytes : Nat
  artifact : ArtifactRef
  scope : String

inductive ResourceState where
  | ready
  | degraded
  | unavailable
deriving DecidableEq, Repr

structure TopologyLink where
  peer : Identity
  kind : String
  properties : String → Option String

structure Resource where
  identity : Identity
  provider : Identity
  resourceClass : String
  capabilities : List Capability
  capacity : String → Option Quantity
  attributes : String → Option String
  state : ResourceState
  reasonCode : String
  summary : String
  links : List TopologyLink

structure CapabilityRequirement where
  id : String
  minimumRevision : Nat

structure ResourceQuery where
  resourceClass : String
  count : Nat
  requiredCapabilities : List CapabilityRequirement
  minimumCapacity : List (String × Quantity)

/-- What a request asks beyond the defaults of the contract. -/
structure ExecutionPlacementRequest where
  resourceQuery : ResourceQuery
  allowedAttachments : List String
  persistent : Option Bool
  restartCapability : Option String
  checkpointResume : Bool
  artifacts : List ArtifactRef
  artifactPolicyScope : String
  requiredTrustDomain : Option String
  nowUnixMs : Nat

structure ProviderSnapshot where
  provider : Identity
  snapshotGeneration : Nat
  resources : List Resource
  sampledAtUnixMs : Nat
  expiresAtUnixMs : Nat

structure ArtifactPlacementQuote where
  quoteId : String
  artifact : ArtifactRef
  destinationPeerId : String
  policyScope : String
  observedAtUnixMs : Nat
  validUntilUnixMs : Nat
  inventoryGeneration : Nat

structure ExecutionTargetCandidate where
  node : NodeIdentity
  attachment : String
  persistent : Bool
  restartCapability : String
  provider : Identity
  providerSnapshot : ProviderSnapshot
  residency : String
  trustDomain : String
  artifactDestinationPeerId : String
  artifactQuotes : List ArtifactPlacementQuote
  availableAtUnixMs : Nat

structure Evaluation where
  eligible : Bool
  reasons : List (String × String)

structure Contracts where
  resourceState : Int → Option ProtoResourceState
  validate : Resource → Except String Unit
  /-- `plan_execution_placement` for one candidate: its evaluation. -/
  planExecutionPlacement :
    ExecutionPlacementRequest → ExecutionTargetCandidate → Except String Evaluation

variable (contracts : Contracts)

/-- `anyhow`'s `context` -/
def context {α : Type} (value : Option α) (message : String) : Except String α :=
  match value with
  | some value => .ok value
  | none => .error message

def topologyLink (link : ProtoLink) : Except String TopologyLink :=
  (context link.peer "TOPOLOGY_PEER_MISSING").map fun peer => ⟨peer, link.kind, link.properties⟩

def stateFromProto (state : Int) : Except String ResourceState :=
  match contracts.resourceState state with
  | some .ready => .ok .ready
  | some .degraded => .ok .degraded
  | some .unavailable => .ok .unavailable
  | some .unspecified => .error "RESOURCE_STATE_INVALID: state must be known and specified"
  | none => .error "RESOURCE_STATE_INVALID: state must be known and specified"

def resourceFromProto (resource : ProtoResource) : Except String Resource := do
  let identity ← context resource.identity "RESOURCE_IDENTITY_MISSING"
  let provider ← context resource.provider "RESOURCE_PROVIDER_MISSING"
  let state ← stateFromProto contracts resource.state
  let links ← resource.links.mapM topologyLink
  let mapped : Resource :=
    { identity := identity
      provider := provider
      resourceClass := resource.resourceClass
      capabilities := resource.capabilities
      capacity := resource.capacity
      attributes := resource.attributes
      state := state
      reasonCode := resource.reasonCode
      summary := resource.summary
      links := links }
  contracts.validate mapped
  pure mapped

def isCuda (resource : Resource) : Bool :=
  resource.capabilities.any fun capability => capability.id == "vendor.nvidia.cuda"

def resourceQuery (input : Input) : ResourceQuery where
  resourceClass := "accelerator"
  count := 1
  requiredCapabilities := [⟨"vendor.nvidia.cuda", 1⟩]
  minimumCapacity := [("memory.allocatable", ⟨input.minimumMemoryBytes, "byte"⟩)]

def placementRequest (input : Input) (now : Nat) : ExecutionPlacementRequest where
  resourceQuery := resourceQuery input
  allowedAttachments := ["HostAgent"]
  persistent := some true
  restartCapability := some "None"
  checkpointResume := false
  artifacts := [input.artifact]
  artifactPolicyScope := input.scope
  requiredTrustDomain := some input.scope
  nowUnixMs := now

def targetCandidate (input : Input) (node : NodeIdentity) (inventoryGeneration now sampled : Nat)
    (provider : Identity) (resources : List Resource) : ExecutionTargetCandidate where
  node := node
  attachment := "HostAgent"
  persistent := true
  restartCapability := "None"
  provider := provider
  providerSnapshot :=
    { provider := provider
      snapshotGeneration := inventoryGeneration
      resources := resources
      sampledAtUnixMs := sampled
      expiresAtUnixMs := (sampled + 10000) % 2 ^ 64 }
  residency := "configured-host"
  trustDomain := input.scope
  artifactDestinationPeerId := "artifact-peer:" ++ node.nodeId
  artifactQuotes :=
    [{ quoteId := "verified:" ++ input.artifact.digest
       artifact := input.artifact
       destinationPeerId := "artifact-peer:" ++ node.nodeId
       policyScope := input.scope
       observedAtUnixMs := sampled
       validUntilUnixMs := (sampled + 10000) % 2 ^ 64
       inventoryGeneration := inventoryGeneration }]
  availableAtUnixMs := now

/-- The node that the input names. -/
def confirmedNode (input : Input) (facts : KernelCapabilities) : Except String NodeIdentity := do
  let node ← context facts.node "NODE_IDENTITY_MISSING"
  if node.nodeId ≠ input.nodeId ∨ node.nodeEpoch ≠ input.nodeEpoch then
    .error "NODE_VERSION_CHANGED: refresh and confirm the execution node"
  else .ok node

/-- When the facts were observed, in milliseconds of a 64-bit number. -/
def sampledAt (facts : KernelCapabilities) : Except String Nat := do
  let sampled ← context facts.observedAt "NODE_OBSERVATION_MISSING"
  if sampled.seconds < 0 ∨ sampled.nanos < 0 then
    .error "out of range integral type conversion attempted"
  else .ok ((sampled.seconds.toNat * 1000 + sampled.nanos.toNat / 1000000) % 2 ^ 64)

structure Output where
  eligible : Bool
  nodeRef : NodeIdentity
  reasons : List (String × String)

/-- `main`, once the input and the facts are decoded; `clock` is the system's time. -/
def place (input : Input) (facts : KernelCapabilities) (clock : Except String Nat) :
    Except String Output := do
  let node ← confirmedNode input facts
  let now ← clock
  let sampled ← sampledAt facts
  let resources ← facts.resources.mapM (resourceFromProto contracts)
  let first ← context (resources.find? isCuda) "CUDA_RESOURCE_UNAVAILABLE"
  let ofProvider := resources.filter fun resource => resource.provider = first.provider
  let evaluation ← contracts.planExecutionPlacement (placementRequest input now)
    (targetCandidate input node facts.inventoryGeneration now sampled first.provider ofProvider)
  pure ⟨evaluation.eligible, node, evaluation.reasons⟩

end CyreneReactor.HostPlacement
