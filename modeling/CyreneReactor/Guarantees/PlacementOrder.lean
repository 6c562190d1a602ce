import CyreneReactor.HostPlacement
import Mathlib.Data.List.Perm.Basic

namespace CyreneReactor.HostPlacement

open Outcome

/-! Where the order of a host's resources does not decide whether it is eligible. -/

variable {contracts : Contracts} {meets : ResourceQuery → Resource → Prop} {input : Input}
  {facts : KernelCapabilities} {clock : Except String Nat} {resources others : List Resource}
  {provider : Identity}

/-- The host is reported eligible. -/
def Reported (contracts : Contracts) (input : Input) (facts : KernelCapabilities)
    (clock : Except String Nat) : Prop :=
  ∃ output, place contracts input facts clock = .ok output ∧ output.eligible = true

/-- No order of the resources changes that. -/
def OrderFree (contracts : Contracts) (input : Input) (facts : KernelCapabilities)
    (clock : Except String Nat) : Prop :=
  ∀ resources, resources.Perm facts.resources →
    (Reported contracts input { facts with resources := resources } clock ↔
      Reported contracts input facts clock)

/-- Some resource of the provider is ready and meets the query. -/
def Serves (meets : ResourceQuery → Resource → Prop) (input : Input) (resources : List Resource)
    (provider : Identity) : Prop :=
  ∃ resource ∈ resources, resource.provider = provider ∧ resource.state = .ready ∧
    meets (resourceQuery input) resource

/-- The planner takes the host for a provider just where a resource of the provider serves. -/
def Judges (contracts : Contracts) (meets : ResourceQuery → Resource → Prop) (input : Input)
    (facts : KernelCapabilities) : Prop :=
  ∀ node now sampled provider resources, (∀ resource ∈ resources, resource.provider = provider) →
    ((∃ evaluation, contracts.planExecutionPlacement (placementRequest input now)
        (targetCandidate input node facts.inventoryGeneration now sampled provider resources) =
          .ok evaluation ∧ evaluation.eligible = true) ↔
      Serves meets input resources provider)

/-- The input names the node of the facts, and the times are known. -/
def Admitted (input : Input) (facts : KernelCapabilities) (clock : Except String Nat) : Prop :=
  (∃ node, confirmedNode input facts = .ok node) ∧ (∃ now, clock = .ok now) ∧
    ∃ sampled, sampledAt facts = .ok sampled

/-- Where the input is admitted and the resources can be read, all providers with a CUDA resource
serve, or none. -/
def Agreed (contracts : Contracts) (meets : ResourceQuery → Resource → Prop) (input : Input)
    (facts : KernelCapabilities) (clock : Except String Nat) : Prop :=
  Admitted input facts clock →
    ∀ resources, facts.resources.mapM (resourceFromProto contracts) = .ok resources →
      ∀ first ∈ resources, ∀ second ∈ resources, isCuda first = true → isCuda second = true →
        (Serves meets input resources first.provider ↔ Serves meets input resources second.provider)

theorem serves_filter : Serves meets input
    (resources.filter fun resource => resource.provider = provider) provider ↔
      Serves meets input resources provider := by
  constructor
  · intro serves
    obtain ⟨resource, member, rest⟩ := serves
    exact ⟨resource, (List.mem_filter.mp member).1, rest⟩
  · intro serves
    obtain ⟨resource, member, same, rest⟩ := serves
    exact ⟨resource, List.mem_filter.mpr ⟨member, by simpa using same⟩, same, rest⟩

theorem serves_perm (permuted : others.Perm resources) :
    Serves meets input others provider ↔ Serves meets input resources provider := by
  unfold Serves
  simp only [permuted.mem_iff]

/-- The host is reported eligible where the first CUDA resource has a provider that serves. -/
theorem reported_iff (judges : Judges contracts meets input facts) :
    Reported contracts input facts clock ↔
      Admitted input facts clock ∧ ∃ resources first,
        facts.resources.mapM (resourceFromProto contracts) = .ok resources ∧
        resources.find? isCuda = some first ∧ Serves meets input resources first.provider := by
  have ofProvider : ∀ (provider : Identity) (resources : List Resource),
      ∀ resource ∈ resources.filter (fun resource => resource.provider = provider),
        resource.provider = provider := by
    intro provider resources resource member
    simpa using (List.mem_filter.mp member).2
  constructor
  · intro reported
    obtain ⟨output, placed, eligible⟩ := reported
    obtain ⟨node, confirmed, placed⟩ := bind_eq_ok.mp placed
    obtain ⟨now, time, placed⟩ := bind_eq_ok.mp placed
    obtain ⟨sampled, observed, placed⟩ := bind_eq_ok.mp placed
    obtain ⟨resources, read, placed⟩ := bind_eq_ok.mp placed
    obtain ⟨first, found, placed⟩ := bind_eq_ok.mp placed
    obtain ⟨evaluation, planned, same⟩ := bind_eq_ok.mp placed
    cases same
    have isFirst : resources.find? isCuda = some first := by
      cases some : resources.find? isCuda with
      | none => simp [some, context] at found
      | some other =>
          simp only [some, context, Except.ok.injEq] at found
          rw [found]
    exact ⟨⟨⟨node, confirmed⟩, ⟨now, time⟩, sampled, observed⟩, resources, first, read, isFirst,
      serves_filter.mp ((judges _ _ _ _ _ (ofProvider _ _)).mp ⟨evaluation, planned, eligible⟩)⟩
  · intro given
    obtain ⟨⟨⟨node, confirmed⟩, ⟨now, time⟩, sampled, observed⟩, resources, first, read, found,
      serves⟩ := given
    obtain ⟨evaluation, planned, eligible⟩ :=
      (judges node now sampled _ _ (ofProvider first.provider resources)).mpr
        (serves_filter.mpr serves)
    refine ⟨⟨evaluation.eligible, node, evaluation.reasons⟩, ?_, eligible⟩
    have isFirst : context (resources.find? isCuda) "CUDA_RESOURCE_UNAVAILABLE" = .ok first := by
      simp [found, context]
    simp only [place, confirmed, time, observed, read, isFirst, bind, Except.bind]
    rw [planned]
    rfl

/-- Resources that are read can be read in any order. -/
theorem mapM_perm {items : List ProtoResource}
    (read : items.mapM (resourceFromProto contracts) = .ok resources)
    {reordered : List ProtoResource} (permuted : reordered.Perm items) :
    ∃ others, reordered.mapM (resourceFromProto contracts) = .ok others ∧
      others.Perm resources := by
  obtain ⟨others, each, same⟩ := List.perm_comp_forall₂ permuted (mapM_eq_ok.mp read)
  exact ⟨others, mapM_eq_ok.mpr each, same⟩

/-- Any order of what is read is read from some order of the facts. -/
theorem mapM_of_perm {items : List ProtoResource}
    (read : items.mapM (resourceFromProto contracts) = .ok resources)
    (permuted : others.Perm resources) :
    ∃ reordered : List ProtoResource, reordered.Perm items ∧
      reordered.mapM (resourceFromProto contracts) = .ok others := by
  obtain ⟨reordered, each, same⟩ := List.perm_comp_forall₂ permuted (mapM_eq_ok.mp read).flip
  exact ⟨reordered, same, mapM_eq_ok.mpr each.flip⟩

/-- With a CUDA resource in front, its provider decides. -/
theorem reported_of_front (judges : Judges contracts meets input facts)
    (orderFree : OrderFree contracts input facts clock) (admitted : Admitted input facts clock)
    (read : facts.resources.mapM (resourceFromProto contracts) = .ok resources) {first : Resource}
    (member : first ∈ resources) (cuda : isCuda first = true) :
    Serves meets input resources first.provider ↔ Reported contracts input facts clock := by
  obtain ⟨front, back, same⟩ := List.append_of_mem member
  have permuted : (first :: (front ++ back)).Perm resources := by
    rw [same]
    exact List.perm_middle.symm
  obtain ⟨reordered, isPerm, readAgain⟩ := mapM_of_perm read permuted
  have also : Judges contracts meets input { facts with resources := reordered } := judges
  rw [← orderFree reordered isPerm, reported_iff also]
  constructor
  · intro serves
    exact ⟨admitted, _, first, readAgain, by simp [cuda], (serves_perm permuted).mpr serves⟩
  · intro reported
    obtain ⟨_, others, found, readOthers, isFirst, serves⟩ := reported
    rw [readAgain] at readOthers
    cases readOthers
    rw [List.find?_cons_of_pos cuda] at isFirst
    cases isFirst
    exact (serves_perm permuted).mp serves

/-- Where the CUDA resources agree, the first of them decides in no order. -/
theorem first_serves_iff (permuted : others.Perm resources)
    (agreed : ∀ first ∈ resources, ∀ second ∈ resources, isCuda first = true →
      isCuda second = true →
      (Serves meets input resources first.provider ↔ Serves meets input resources second.provider)) :
    (∃ first, others.find? isCuda = some first ∧ Serves meets input others first.provider) ↔
      ∃ first ∈ resources, isCuda first = true ∧ Serves meets input resources first.provider := by
  constructor
  · intro given
    obtain ⟨first, found, serves⟩ := given
    exact ⟨first, permuted.mem_iff.mp (List.mem_of_find?_eq_some found), List.find?_some found,
      (serves_perm permuted).mp serves⟩
  · intro given
    obtain ⟨second, member, cuda, serves⟩ := given
    cases found : others.find? isCuda with
    | none => exact absurd cuda (List.find?_eq_none.mp found second (permuted.mem_iff.mpr member))
    | some first =>
        have inside := permuted.mem_iff.mp (List.mem_of_find?_eq_some found)
        have alike := agreed second member first inside cuda (List.find?_some found)
        exact ⟨first, rfl, (serves_perm permuted).mpr (alike.mp serves)⟩

/-- The order of the facts does not decide just where the providers agree. -/
theorem eligibility_is_order_free_iff (judges : Judges contracts meets input facts) :
    OrderFree contracts input facts clock ↔ Agreed contracts meets input facts clock := by
  constructor
  · intro orderFree admitted resources read first member second other cuda alsoCuda
    rw [reported_of_front judges orderFree admitted read member cuda,
      reported_of_front judges orderFree admitted read other alsoCuda]
  · intro agreed reordered permuted
    have also : Judges contracts meets input { facts with resources := reordered } := judges
    rw [reported_iff also, reported_iff judges]
    constructor
    · intro reported
      obtain ⟨admitted, others, first, readOthers, found⟩ := reported
      obtain ⟨resources, read, same⟩ := mapM_perm readOthers permuted.symm
      have alike := agreed admitted resources read
      obtain ⟨second, isFirst, serves⟩ := (first_serves_iff (List.Perm.refl resources) alike).mpr
        ((first_serves_iff same.symm alike).mp ⟨first, found⟩)
      exact ⟨admitted, resources, second, read, isFirst, serves⟩
    · intro reported
      obtain ⟨admitted, resources, first, read, found⟩ := reported
      obtain ⟨others, readOthers, same⟩ := mapM_perm read permuted
      have alike := agreed admitted resources read
      obtain ⟨second, isFirst, serves⟩ := (first_serves_iff same alike).mpr
        ((first_serves_iff (List.Perm.refl resources) alike).mp ⟨first, found⟩)
      exact ⟨admitted, others, second, readOthers, isFirst, serves⟩

def sampleMeets (query : ResourceQuery) (resource : Resource) : Bool :=
  resource.resourceClass == query.resourceClass &&
    query.requiredCapabilities.all (fun required => resource.capabilities.any fun capability =>
      capability.id == required.id && required.minimumRevision ≤ capability.revision) &&
    query.minimumCapacity.all fun needed =>
      match resource.capacity needed.1 with
      | some quantity => quantity.unit == needed.2.unit && needed.2.value ≤ quantity.value
      | none => false

/-- The planner takes a host where a resource is ready and has the memory. -/
def sampleContracts : Contracts where
  resourceState
    | 1 => some .ready
    | 2 => some .degraded
    | 3 => some .unavailable
    | 0 => some .unspecified
    | _ => none
  validate _ := .ok ()
  planExecutionPlacement request candidate :=
    .ok ⟨candidate.providerSnapshot.resources.any fun resource =>
      resource.provider = candidate.provider && resource.state = .ready &&
        sampleMeets request.resourceQuery resource, []⟩

def accelerator (provider gpu : String) (bytes : Nat) : ProtoResource where
  identity := some ⟨provider ++ "/" ++ gpu, 1⟩
  provider := some ⟨provider, 1⟩
  resourceClass := "accelerator"
  capabilities := [⟨"vendor.nvidia.cuda", 1, fun _ => none⟩]
  capacity key := if key = "memory.allocatable" then some ⟨bytes, "byte"⟩ else none
  attributes _ := none
  state := 1
  reasonCode := "resource.ready"
  summary := "available"
  links := []

def sampleInput : Input := ⟨"node-0", 1, 24 * 2 ^ 30, ⟨"sha256:0"⟩, "workspace"⟩

def sampleFacts (resources : List ProtoResource) : KernelCapabilities :=
  ⟨some ⟨"node-0", 1⟩, some ⟨1, 0⟩, 1, resources⟩

theorem sample_judges (resources : List ProtoResource) :
    Judges sampleContracts (fun query resource => sampleMeets query resource = true) sampleInput
      (sampleFacts resources) := by
  intro node now sampled provider resources ofProvider
  simp [sampleContracts, Serves, targetCandidate, placementRequest, and_assoc]

/-- The small accelerator comes first, and the large one serves for both. -/
def pair : KernelCapabilities :=
  sampleFacts [accelerator "pair" "gpu-0" (8 * 2 ^ 30), accelerator "pair" "gpu-1" (80 * 2 ^ 30)]

theorem one_provider_is_order_free :
    OrderFree sampleContracts sampleInput pair (.ok 1000) ∧
      Reported sampleContracts sampleInput pair (.ok 1000) := by
  refine ⟨(eligibility_is_order_free_iff (sample_judges _)).mpr ?_, ⟨_, rfl, by decide⟩⟩
  intro admitted resources read first member second other cuda alsoCuda
  have own : ∀ resource ∈ resources, resource.provider = ⟨"pair", 1⟩ := by
    have read := mapM_eq_ok.mp read
    obtain ⟨_, _, readSmall, after, rfl⟩ := List.forall₂_cons_left_iff.mp read
    obtain ⟨_, _, readLarge, none, rfl⟩ := List.forall₂_cons_left_iff.mp after
    obtain rfl := List.forall₂_nil_left_iff.mp none
    obtain rfl := Except.ok.inj readSmall
    obtain rfl := Except.ok.inj readLarge
    simp [accelerator]
  rw [own first member, own second other]

def small : ProtoResource := accelerator "small" "gpu-0" (8 * 2 ^ 30)

def large : ProtoResource := accelerator "large" "gpu-0" (80 * 2 ^ 30)

/-- With the large accelerator first the host is eligible, with the small one it is not. -/
theorem first_provider_decides :
    Reported sampleContracts sampleInput (sampleFacts [large, small]) (.ok 1000) ∧
      ¬ Reported sampleContracts sampleInput (sampleFacts [small, large]) (.ok 1000) ∧
      ¬ OrderFree sampleContracts sampleInput (sampleFacts [large, small]) (.ok 1000) := by
  have eligible : Reported sampleContracts sampleInput (sampleFacts [large, small]) (.ok 1000) :=
    ⟨_, rfl, by decide⟩
  have refused :
      ¬ Reported sampleContracts sampleInput (sampleFacts [small, large]) (.ok 1000) := by
    intro reported
    obtain ⟨output, placed, eligible⟩ := reported
    cases placed
    revert eligible
    decide
  refine ⟨eligible, refused, fun orderFree => refused ?_⟩
  exact (orderFree [small, large] (List.Perm.swap large small [])).mpr eligible

end CyreneReactor.HostPlacement
