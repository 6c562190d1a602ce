import CyreneReactor.Service.World

namespace CyreneReactor

open Relational

/-! What the store holds about one deployment: its document, the endpoint the
document names and the recorded execution evidence.
-/

@[ext] structure Slot where
  deployment : Deployment
  endpoint : Option Endpoint
  executionRef : Option String

namespace Database

variable {db : Database} {deployment : Deployment} {endpoint : Endpoint}
variable {executionRef : Option String} {id : Uuid}

theorem getDeployment_mem (found : db.getDeployment id = some deployment) :
    deployment ∈ db.deployments.rows ∧ deployment.id = id := by
  obtain ⟨member, key⟩ := Table.find?_mem found
  exact ⟨member, by simpa using key⟩

theorem getDeployment_of_mem (member : deployment ∈ db.deployments.rows) :
    db.getDeployment deployment.id = some deployment := by
  cases found : db.getDeployment deployment.id with
  | none => simpa using List.find?_eq_none.mp found deployment member
  | some other =>
      obtain ⟨present, key⟩ := getDeployment_mem found
      have same := Table.eq_of_clash (fun left right => BEq.comm) present member
        (by simpa [Deployment.clash] using key)
      rw [same]

theorem getEndpoint_mem (found : db.getEndpoint id = some endpoint) :
    endpoint ∈ db.endpoints.rows ∧ endpoint.id = id := by
  obtain ⟨member, key⟩ := Table.find?_mem found
  exact ⟨member, by simpa using key⟩

theorem getEndpoint_of_mem (member : endpoint ∈ db.endpoints.rows) :
    db.getEndpoint endpoint.id = some endpoint := by
  cases found : db.getEndpoint endpoint.id with
  | none => simpa using List.find?_eq_none.mp found endpoint member
  | some other =>
      obtain ⟨present, key⟩ := getEndpoint_mem found
      have same := Table.eq_of_clash
        (fun left right => by simp only [Endpoint.clash, BEq.comm]) present member
        (by simp [Endpoint.clash, key])
      rw [same]

theorem getDeployment_saveDeployment :
    (db.saveDeployment deployment).getDeployment id =
      if deployment.id = id then some deployment else db.getDeployment id := by
  by_cases same : deployment.id = id
  · rw [if_pos same]
    refine Table.find?_insertOrReplace_hit (by simpa using same) fun old _ wanted => ?_
    simp only [beq_iff_eq] at wanted
    simp [Deployment.clash, wanted, same]
  · rw [if_neg same]
    refine Table.find?_insertOrReplace_miss (by simpa using same) fun old found => ?_
    have key := (getDeployment_mem found).2
    simpa [Deployment.clash, key] using Ne.symm same

theorem getDeployment_savePair :
    (db.savePair deployment endpoint executionRef).getDeployment id =
      if deployment.id = id then some deployment else db.getDeployment id :=
  getDeployment_saveDeployment

theorem getEndpoint_savePair_self :
    (db.savePair deployment endpoint executionRef).getEndpoint endpoint.id = some endpoint :=
  Table.find?_insertOrReplace_hit (by simp) fun old _ wanted => by
    simp only [beq_iff_eq] at wanted
    simp [Endpoint.clash, wanted]

theorem getEndpoint_savePair_other (different : endpoint.id ≠ id)
    (apart : ∀ old, db.getEndpoint id = some old → old.deploymentId ≠ endpoint.deploymentId) :
    (db.savePair deployment endpoint executionRef).getEndpoint id = db.getEndpoint id :=
  Table.find?_insertOrReplace_miss (by simpa using different) fun old found => by
    have key := (getEndpoint_mem found).2
    simp [Endpoint.clash, key, Ne.symm different, apart old found]

theorem getExecutionRef_savePair :
    (db.savePair deployment endpoint executionRef).getExecutionRef id =
      if deployment.id = id then executionRef.or (db.getExecutionRef id)
      else db.getExecutionRef id := by
  cases executionRef with
  | none => simp [savePair, getExecutionRef]
  | some ref =>
      by_cases same : deployment.id = id
      · subst same
        have hit : (db.executionEvidence.insertOrReplace ⟨deployment.id, ref⟩).find?
            (fun row => row.deploymentId == deployment.id) = some ⟨deployment.id, ref⟩ :=
          Table.find?_insertOrReplace_hit (by simp) fun old _ wanted => by
            simp only [beq_iff_eq] at wanted
            simp [ExecutionEvidence.clash, wanted]
        simp [savePair, getExecutionRef, hit]
      · have miss : (db.executionEvidence.insertOrReplace ⟨deployment.id, ref⟩).find?
            (fun row => row.deploymentId == id) =
              db.executionEvidence.find? fun row => row.deploymentId == id :=
          Table.find?_insertOrReplace_miss (by simpa using same) fun old found => by
            have key := (Table.find?_mem found).2
            simp only [beq_iff_eq] at key
            simpa [ExecutionEvidence.clash, key] using Ne.symm same
        simp [savePair, getExecutionRef, miss, same]

def slot (db : Database) (id : Uuid) : Option Slot :=
  (db.getDeployment id).map fun deployment =>
    ⟨deployment, deployment.endpointId.bind db.getEndpoint, db.getExecutionRef id⟩

theorem slot_eq_some {slot : Slot} (here : db.slot id = some slot) :
    db.getDeployment id = some slot.deployment ∧ slot.deployment.id = id ∧
      slot.endpoint = slot.deployment.endpointId.bind db.getEndpoint ∧
      slot.executionRef = db.getExecutionRef id := by
  cases found : db.getDeployment id with
  | none => simp [Database.slot, found] at here
  | some deployment =>
      simp only [Database.slot, found, Option.map_some, Option.some.injEq] at here
      subst here
      exact ⟨rfl, (getDeployment_mem found).2, rfl, rfl⟩

theorem slot_of_getDeployment (found : db.getDeployment id = some deployment) :
    db.slot id = some ⟨deployment, deployment.endpointId.bind db.getEndpoint,
      db.getExecutionRef id⟩ := by
  simp only [slot, found, Option.map_some]

theorem slot_of_mem (stored : deployment ∈ db.deployments.rows) :
    ∃ slot, db.slot deployment.id = some slot ∧ slot.deployment = deployment :=
  ⟨_, slot_of_getDeployment (getDeployment_of_mem stored), rfl⟩

/-- Two databases that agree on the three tables agree on every slot. -/
theorem slot_congr {left right : Database} (deployments : left.deployments = right.deployments)
    (endpoints : left.endpoints = right.endpoints)
    (evidence : left.executionEvidence = right.executionEvidence) :
    left.slot id = right.slot id := by
  have getEndpoint_eq : left.getEndpoint = right.getEndpoint := by
    funext id
    simp only [getEndpoint, endpoints]
  simp only [slot, getDeployment, getExecutionRef, deployments, evidence, getEndpoint_eq]

theorem slot_saveDeployment_self {slot : Slot} (here : db.slot deployment.id = some slot)
    (kept : deployment.endpointId = slot.deployment.endpointId) :
    (db.saveDeployment deployment).slot deployment.id = some { slot with deployment } := by
  obtain ⟨_, _, endpoint, executionRef⟩ := slot_eq_some here
  have saved : (db.saveDeployment deployment).getDeployment deployment.id = some deployment := by
    rw [getDeployment_saveDeployment, if_pos rfl]
  rw [slot_of_getDeployment saved, endpoint, executionRef, kept]
  rfl

theorem slot_saveDeployment_other (different : deployment.id ≠ id) :
    (db.saveDeployment deployment).slot id = db.slot id := by
  have same : (db.saveDeployment deployment).getDeployment id = db.getDeployment id := by
    rw [getDeployment_saveDeployment, if_neg different]
  unfold slot
  rw [same]
  rfl

/-- Every endpoint belongs to the one deployment that names it, and execution
evidence is only kept for deployments that have an endpoint. -/
structure Linked (db : Database) : Prop where
  owned : ∀ endpoint ∈ db.endpoints.rows, ∃ deployment ∈ db.deployments.rows,
    deployment.id = endpoint.deploymentId ∧ deployment.endpointId = some endpoint.id
  present : ∀ deployment ∈ db.deployments.rows, ∀ id, deployment.endpointId = some id →
    ∃ endpoint ∈ db.endpoints.rows, endpoint.id = id ∧ endpoint.deploymentId = deployment.id
  evidenced : ∀ evidence ∈ db.executionEvidence.rows, ∃ deployment ∈ db.deployments.rows,
    deployment.id = evidence.deploymentId ∧ deployment.endpointId.isSome = true

theorem linked_empty : Linked empty where
  owned _ member := nomatch member
  present _ member := nomatch member
  evidenced _ member := nomatch member

/-- What a pair needs so that saving it replaces exactly the rows of `slot`. -/
structure Fits (db : Database) (slot : Slot) (deployment : Deployment) (endpoint : Endpoint) :
    Prop where
  here : db.slot deployment.id = some slot
  names : deployment.endpointId = some endpoint.id
  owner : endpoint.deploymentId = deployment.id
  same : ∀ previous, slot.endpoint = some previous → previous.id = endpoint.id
  new : slot.endpoint = none → ∀ row ∈ db.endpoints.rows, row.id ≠ endpoint.id

namespace Linked

variable {slot : Slot}

/-- The endpoint a stored deployment names is there and points back. -/
theorem endpoint_of_slot (linked : db.Linked) (here : db.slot id = some slot) :
    (slot.deployment.endpointId = none ∧ slot.endpoint = none) ∨
      ∃ endpoint, slot.deployment.endpointId = some endpoint.id ∧ slot.endpoint = some endpoint ∧
        endpoint.deploymentId = id ∧ db.getEndpoint endpoint.id = some endpoint := by
  obtain ⟨found, key, stored, _⟩ := slot_eq_some here
  cases names : slot.deployment.endpointId with
  | none => exact .inl ⟨rfl, by rw [stored, names]; rfl⟩
  | some endpointId =>
      obtain ⟨endpoint, member, rfl, owner⟩ :=
        linked.present _ (getDeployment_mem found).1 _ names
      have lookup := getEndpoint_of_mem member
      refine .inr ⟨endpoint, rfl, ?_, owner.trans key, lookup⟩
      rw [stored, names]
      exact lookup

theorem endpoint_of_evidence (linked : db.Linked) (here : db.slot id = some slot)
    {ref : String} (evidence : slot.executionRef = some ref) : slot.endpoint.isSome = true := by
  obtain ⟨found, _, _, recorded⟩ := slot_eq_some here
  rw [recorded, getExecutionRef, Option.map_eq_some_iff] at evidence
  obtain ⟨row, lookup, _⟩ := evidence
  obtain ⟨member, key⟩ := Table.find?_mem lookup
  obtain ⟨deployment, stored, owner, named⟩ := linked.evidenced row member
  have self : deployment = slot.deployment := by
    have lookup := getDeployment_of_mem stored
    rw [owner, beq_iff_eq.mp key, found] at lookup
    exact (Option.some.inj lookup).symm
  rcases linked.endpoint_of_slot here with ⟨none, _⟩ | ⟨endpoint, _, present, _⟩
  · rw [self, none] at named
    cases named
  · rw [present]
    rfl

/-- A deployment that is not stored has no evidence either. -/
theorem slot_none_evidence (linked : db.Linked) (absent : db.getDeployment id = none) :
    db.getExecutionRef id = none := by
  cases lookup : db.executionEvidence.find? (fun row => row.deploymentId == id) with
  | none => simp only [getExecutionRef, lookup, Option.map_none]
  | some row =>
      obtain ⟨member, key⟩ := Table.find?_mem lookup
      obtain ⟨deployment, stored, owner, _⟩ := linked.evidenced row member
      have found := getDeployment_of_mem stored
      rw [owner, beq_iff_eq.mp key, absent] at found
      cases found

theorem saveDeployment (linked : db.Linked) (here : db.slot deployment.id = some slot)
    (kept : deployment.endpointId = slot.deployment.endpointId) :
    (db.saveDeployment deployment).Linked := by
  obtain ⟨found, key, _, _⟩ := slot_eq_some here
  have stored := (getDeployment_mem found).1
  -- The row of a stored deployment survives, or it is the one being replaced.
  have survives : ∀ old ∈ db.deployments.rows, ∃ new ∈ (db.saveDeployment deployment).deployments.rows,
      new.id = old.id ∧ new.endpointId = old.endpointId := by
    intro old member
    by_cases replaced : old.id = deployment.id
    · have self : old = slot.deployment := by
        have lookup := getDeployment_of_mem member
        rw [replaced, found] at lookup
        exact (Option.some.inj lookup).symm
      exact ⟨deployment, Table.mem_insertOrReplace.mpr (.inr rfl), replaced.symm, by rw [kept, self]⟩
    · exact ⟨old, Table.mem_insertOrReplace.mpr
        (.inl ⟨member, by simpa [Deployment.clash] using replaced⟩), rfl, rfl⟩
  refine ⟨?_, ?_, ?_⟩
  · intro endpoint member
    obtain ⟨old, present, owner, names⟩ := linked.owned endpoint member
    obtain ⟨new, added, sameId, sameEndpoint⟩ := survives old present
    exact ⟨new, added, sameId.trans owner, sameEndpoint.trans names⟩
  · intro row member id names
    rcases Table.mem_insertOrReplace.mp member with ⟨old, _⟩ | rfl
    · exact linked.present row old id names
    · obtain ⟨endpoint, present, same, owner⟩ := linked.present _ stored id (kept.symm.trans names)
      exact ⟨endpoint, present, same, owner.trans key⟩
  · intro evidence member
    obtain ⟨old, present, owner, named⟩ := linked.evidenced evidence member
    obtain ⟨new, added, sameId, sameEndpoint⟩ := survives old present
    exact ⟨new, added, sameId.trans owner, by rw [sameEndpoint]; exact named⟩

/-- An endpoint that clashes with the saved one is the deployment's own. -/
theorem clash_of_fits (linked : db.Linked) (fits : db.Fits slot deployment endpoint)
    {old : Endpoint} (member : old ∈ db.endpoints.rows)
    (clashes : old.id = endpoint.id ∨ old.deploymentId = deployment.id) :
    slot.endpoint = some old := by
  obtain ⟨found, _⟩ := slot_eq_some fits.here
  obtain ⟨owner, stored, ownerId, names⟩ := linked.owned old member
  -- The owner of a row that names the deployment is the deployment itself.
  have own : old.deploymentId = deployment.id → slot.endpoint = some old := by
    intro mine
    have lookup := getDeployment_of_mem stored
    rw [ownerId, mine, found] at lookup
    rcases linked.endpoint_of_slot fits.here with ⟨none, _⟩ | ⟨previous, named, present, _, there⟩
    · rw [← Option.some.inj lookup, none] at names
      cases names
    · rw [← Option.some.inj lookup, named, Option.some.injEq] at names
      rw [names, getEndpoint_of_mem member] at there
      rw [present, Option.some.inj there]
  rcases clashes with sameId | sameOwner
  · rcases linked.endpoint_of_slot fits.here with ⟨_, absent⟩ | ⟨previous, _, present, mine, there⟩
    · exact absurd sameId (fits.new absent old member)
    · rw [fits.same previous present, ← sameId, getEndpoint_of_mem member, Option.some.injEq] at there
      exact own (by rw [there]; exact mine)
  · exact own sameOwner

theorem slot_savePair_other (linked : db.Linked) (fits : db.Fits slot deployment endpoint)
    (different : deployment.id ≠ id) :
    (db.savePair deployment endpoint executionRef).slot id = db.slot id := by
  cases found : db.getDeployment id with
  | none =>
      have same : (db.savePair deployment endpoint executionRef).getDeployment id = none := by
        rw [getDeployment_savePair, if_neg different, found]
      simp only [Database.slot, same, found, Option.map_none]
  | some other =>
      have same : (db.savePair deployment endpoint executionRef).getDeployment id = some other := by
        rw [getDeployment_savePair, if_neg different, found]
      have evidence : (db.savePair deployment endpoint executionRef).getExecutionRef id =
          db.getExecutionRef id := by
        rw [getExecutionRef_savePair, if_neg different]
      rw [slot_of_getDeployment same, slot_of_getDeployment found, evidence]
      rcases linked.endpoint_of_slot (slot_of_getDeployment found) with
        ⟨unnamed, _⟩ | ⟨old, named, _, owner, there⟩
      · have unnamed : other.endpointId = none := unnamed
        simp only [unnamed, Option.bind_none]
      · have named : other.endpointId = some old.id := named
        have member := (getEndpoint_mem there).1
        have apart : ¬(old.id = endpoint.id ∨ old.deploymentId = deployment.id) := by
          intro clashes
          have mine := linked.clash_of_fits fits member clashes
          rcases linked.endpoint_of_slot fits.here with ⟨_, absent⟩ | ⟨_, _, present, owned, _⟩
          · rw [absent] at mine
            cases mine
          · rw [present, Option.some.injEq] at mine
            rw [mine] at owned
            exact different (owned.symm.trans owner)
        have kept : (db.savePair deployment endpoint executionRef).getEndpoint old.id =
            db.getEndpoint old.id :=
          getEndpoint_savePair_other (fun same => apart (.inl same.symm)) fun row lookup => by
            rw [there, Option.some.injEq] at lookup
            rw [← lookup, fits.owner]
            exact fun same => apart (.inr same)
        simp only [named, Option.bind_some, kept]

theorem slot_savePair_self (fits : db.Fits slot deployment endpoint) :
    (db.savePair deployment endpoint executionRef).slot deployment.id =
      some ⟨deployment, some endpoint, executionRef.or slot.executionRef⟩ := by
  have saved : (db.savePair deployment endpoint executionRef).getDeployment deployment.id =
      some deployment := by
    rw [getDeployment_savePair, if_pos rfl]
  obtain ⟨_, _, _, recorded⟩ := slot_eq_some fits.here
  rw [slot_of_getDeployment saved, fits.names, Option.bind_some, getEndpoint_savePair_self,
    getExecutionRef_savePair, if_pos rfl, recorded]

theorem savePair (linked : db.Linked) (fits : db.Fits slot deployment endpoint) :
    (db.savePair deployment endpoint executionRef).Linked := by
  have kept : ∀ old ∈ db.deployments.rows, old.id ≠ deployment.id →
      old ∈ (db.savePair deployment endpoint executionRef).deployments.rows := fun old member apart =>
    Table.mem_insertOrReplace.mpr (.inl ⟨member, by simpa [Deployment.clash] using apart⟩)
  have saved : deployment ∈ (db.savePair deployment endpoint executionRef).deployments.rows :=
    Table.mem_insertOrReplace.mpr (.inr rfl)
  refine ⟨?_, ?_, ?_⟩
  · intro row member
    rcases Table.mem_insertOrReplace.mp member with ⟨old, apart⟩ | rfl
    · obtain ⟨owner, stored, ownerId, names⟩ := linked.owned row old
      simp only [Endpoint.clash, Bool.or_eq_false_iff, beq_eq_false_iff_ne, fits.owner] at apart
      exact ⟨owner, kept owner stored (by rw [ownerId]; exact apart.2), ownerId, names⟩
    · exact ⟨deployment, saved, fits.owner.symm, fits.names⟩
  · intro row member id names
    rcases Table.mem_insertOrReplace.mp member with ⟨old, apart⟩ | rfl
    · simp only [Deployment.clash, beq_eq_false_iff_ne] at apart
      obtain ⟨present, stored, same, owner⟩ := linked.present row old id names
      refine ⟨present, Table.mem_insertOrReplace.mpr (.inl ⟨stored, ?_⟩), same, owner⟩
      refine Bool.eq_false_iff.mpr fun clashes => ?_
      have either : present.id = endpoint.id ∨ present.deploymentId = deployment.id := by
        simpa only [Endpoint.clash, Bool.or_eq_true, beq_iff_eq, fits.owner] using clashes
      have mine := linked.clash_of_fits fits stored either
      rcases linked.endpoint_of_slot fits.here with ⟨_, absent⟩ | ⟨_, _, there, owned, _⟩
      · rw [absent] at mine
        cases mine
      · rw [there, Option.some.injEq] at mine
        rw [mine] at owned
        exact apart (owner.symm.trans owned)
    · rw [fits.names, Option.some.injEq] at names
      exact ⟨endpoint, Table.mem_insertOrReplace.mpr (.inr rfl), names, fits.owner⟩
  · intro row member
    have old : row ∈ db.executionEvidence.rows ∨ row.deploymentId = deployment.id := by
      cases executionRef with
      | none => exact .inl member
      | some ref =>
          rcases Table.mem_insertOrReplace.mp member with ⟨old, _⟩ | rfl
          · exact .inl old
          · exact .inr rfl
    by_cases mine : row.deploymentId = deployment.id
    · exact ⟨deployment, saved, mine.symm, by rw [fits.names]; rfl⟩
    · obtain ⟨owner, stored, ownerId, named⟩ := linked.evidenced row (old.resolve_right mine)
      exact ⟨owner, kept owner stored (by rw [ownerId]; exact mine), ownerId, named⟩

end Linked

namespace Admits

variable {key : Option String} {digest : String} {after : Database}

theorem absent (admits : db.Admits deployment key digest after) :
    db.getDeployment deployment.id = none := by
  refine List.find?_eq_none.mpr fun old member => ?_
  simpa using admits.fresh old member

theorem getDeployment_eq (admits : db.Admits deployment key digest after) :
    after.getDeployment id =
      if deployment.id = id then some deployment else db.getDeployment id := by
  simp only [getDeployment, Table.find?, admits.deployments, List.find?_append]
  by_cases same : deployment.id = id
  · have missing : db.deployments.rows.find? (fun row => row.id == id) = none :=
      List.find?_eq_none.mpr fun old member => by simpa [← same] using admits.fresh old member
    simp [missing, same]
  · simp [same]

theorem reads (admits : db.Admits deployment key digest after) :
    after.getEndpoint = db.getEndpoint ∧ after.getExecutionRef = db.getExecutionRef := by
  constructor <;> funext id
  · simp only [getEndpoint, admits.endpoints]
  · simp only [getExecutionRef, admits.executionEvidence]

theorem slot_self (admits : db.Admits deployment key digest after) (linked : db.Linked)
    (unaddressed : deployment.endpointId = none) :
    after.slot deployment.id = some ⟨deployment, none, none⟩ := by
  have found : after.getDeployment deployment.id = some deployment := by
    rw [admits.getDeployment_eq, if_pos rfl]
  rw [slot_of_getDeployment found, unaddressed, admits.reads.2,
    linked.slot_none_evidence admits.absent]
  rfl

theorem slot_other (admits : db.Admits deployment key digest after)
    (different : deployment.id ≠ id) : after.slot id = db.slot id := by
  have same : after.getDeployment id = db.getDeployment id := by
    rw [admits.getDeployment_eq, if_neg different]
  unfold slot
  rw [same, admits.reads.1, admits.reads.2]

theorem linked (admits : db.Admits deployment key digest after) (linked : db.Linked)
    (unaddressed : deployment.endpointId = none) : after.Linked := by
  have kept : ∀ old ∈ db.deployments.rows, old ∈ after.deployments.rows := fun old member => by
    rw [admits.deployments]
    exact List.mem_append_left _ member
  refine ⟨?_, ?_, ?_⟩
  · rw [admits.endpoints]
    intro endpoint member
    obtain ⟨owner, stored, ownerId, names⟩ := linked.owned endpoint member
    exact ⟨owner, kept owner stored, ownerId, names⟩
  · rw [admits.endpoints]
    intro row member id names
    rw [admits.deployments, List.mem_append, List.mem_singleton] at member
    rcases member with old | rfl
    · exact linked.present row old id names
    · rw [unaddressed] at names
      cases names
  · rw [admits.executionEvidence]
    intro evidence member
    obtain ⟨owner, stored, ownerId, named⟩ := linked.evidenced evidence member
    exact ⟨owner, kept owner stored, ownerId, named⟩

end Admits

end Database

end CyreneReactor
