import FleetosControl.Controllers.Preemption
import FleetosControl.DummyIp.Allocations

/-! What a pass has done when it stops. The collecting loop and the address loop return at the first
error, whichever workload it came from. -/
namespace FleetosControl
open Wire KeyValue Trace WorkloadController OrdinalTracker Std

section
variable [FleetosCore] [Formats] {place : ServicePlace} {logId : LogId} {before node : Node} {block : TenantBlock}
  {address : ServiceAddress} {specs : List WorkloadSpec} {spec : WorkloadSpec} {slot : Slot} {tenantId : String}

/-- The entries that a pass has had applied by the time it returns, and the error it returns with. -/
structure PassOutcome where
  trace : List (Transition Node Entry)
  last : Node
  error : Option ControllerError

namespace PassOutcome

def result (outcome : PassOutcome) : Except ControllerError (List (Transition Node Entry) × Node) :=
  match outcome.error with
  | none => .ok (outcome.trace,outcome.last)
  | some e => .error e

def after (outcome : PassOutcome) (trace : List (Transition Node Entry)) : PassOutcome :=
  { outcome with trace := trace ++ outcome.trace }

end PassOutcome

namespace WorkloadController

def proposeUntil (node : Node) (logId : LogId) : List AuditedCommand → PassOutcome
  | [] => ⟨[],node,none⟩
  | audited::rest =>
    match applyEntry node ⟨logId,.normal audited⟩ with
    | .error e => ⟨[],node,some (.raft e)⟩
    | .ok applied =>
      (proposeUntil applied.1 (nextLogId logId) rest).after [⟨node,⟨logId,.normal audited⟩,applied.1⟩]

def allocateUntil (node : Node) (logId : LogId) : List (String × String × String) → PassOutcome
  | [] => ⟨[],node,none⟩
  | (tenantId,workloadId,role)::rest =>
    match allocateServiceAddress node.disk tenantId workloadId role with
    | .error e => ⟨[],node,some (.dummyIp e)⟩
    | .ok none => allocateUntil node logId rest
    | .ok (some audited) =>
      match applyEntry node ⟨logId,.normal audited⟩ with
      | .error e => ⟨[],node,some (.raft e)⟩
      | .ok applied =>
        (allocateUntil applied.1 (nextLogId logId) rest).after [⟨node,⟨logId,.normal audited⟩,applied.1⟩]

/-- `reconcile_all` with what it leaves behind when it returns early. -/
def passOutcome (node : Node) (logId : LogId) (specs : List WorkloadSpec) : PassOutcome :=
  match placementProposals node.disk specs with
  | .error e => ⟨[],node,some e⟩
  | .ok commands =>
    let placed := proposeUntil node logId commands
    match placed.error with
    | some _ => placed
    | none =>
      (allocateUntil placed.last { logId with index := logId.index + .ofNat commands.length }
        (serviceRoles specs)).after placed.trace

theorem proposeUntil_result (node : Node) (logId : LogId) (commands : List AuditedCommand) :
    proposeAll node logId commands = (proposeUntil node logId commands).result := by
  induction commands generalizing node logId with
  | nil => rfl
  | cons audited rest ih =>
    rw [proposeAll,proposeUntil]
    cases applied : applyEntry node ⟨logId,.normal audited⟩ with
    | error e => rfl
    | ok next =>
      simp only [Except.mapError,bind,Except.bind,ih]
      simp only [PassOutcome.result,PassOutcome.after]
      cases (proposeUntil next.1 (nextLogId logId) rest).error <;> rfl

theorem allocateUntil_result (node : Node) (logId : LogId) (roles : List (String × String × String)) :
    allocateServiceAddresses node logId roles = (allocateUntil node logId roles).result := by
  induction roles generalizing node logId with
  | nil => rfl
  | cons named rest ih =>
    obtain ⟨tenantId,workloadId,role⟩ := named
    rw [allocateServiceAddresses,allocateUntil]
    cases computed : allocateServiceAddress node.disk tenantId workloadId role with
    | error e => rfl
    | ok found =>
      cases found with
      | none => exact ih node logId
      | some audited =>
        simp only [Except.mapError,bind,Except.bind]
        cases applied : applyEntry node ⟨logId,.normal audited⟩ with
        | error e => rfl
        | ok next =>
          simp only [ih]
          simp only [PassOutcome.result,PassOutcome.after]
          cases (allocateUntil next.1 (nextLogId logId) rest).error <;> rfl

theorem passOutcome_result (node : Node) (logId : LogId) (specs : List WorkloadSpec) :
    reconcileAll node logId specs = (passOutcome node logId specs).result := by
  rw [reconcileAll,passOutcome]
  cases placementProposals node.disk specs with
  | error e => rfl
  | ok commands =>
    simp only [bind,Except.bind,proposeUntil_result,allocateUntil_result]
    cases stopped : (proposeUntil node logId commands).error with
    | some e => simp [PassOutcome.result,stopped]
    | none =>
      simp only [PassOutcome.result,stopped,PassOutcome.after]
      cases (allocateUntil (proposeUntil node logId commands).last _ (serviceRoles specs)).error <;> rfl

theorem OfPlacing.applies (placing : OfPlacing cmd) (disk : Disk) :
    ∃ writes kind, applyCommand disk cmd = .ok (writes,kind) := by
  cases placing <;> exact ⟨_,_,rfl⟩

variable {commands : List AuditedCommand} {specs : List WorkloadSpec} {storage : Disk}

theorem proposeUntil_ofPlacing (node : Node) (logId : LogId) (placing : ∀ audited ∈ commands, OfPlacing audited.cmd) :
    (proposeUntil node logId commands).error = none := by
  induction commands generalizing node logId with
  | nil => rfl
  | cons audited rest ih =>
    obtain ⟨writes,kind,ok⟩ := (placing audited mem_cons_self).applies node.disk
    obtain ⟨next,response,applied⟩ := applyEntry_of_payload node ⟨logId,.normal audited⟩ ok
    rw [proposeUntil,applied]
    exact ih next (nextLogId logId) fun later member => placing later (mem_cons_of_mem _ member)

theorem placementProposals_isOk : (∃ commands, placementProposals storage specs = .ok commands) ↔
      ∀ spec ∈ specs, ∀ slot ∈ spec.slots, ∃ existing, getAssignment storage slot = .ok existing := by
  have collects : (∃ found, collectPending storage (buildClusterState storage) specs = .ok found) ↔ _ :=
    collectPending_isOk
  rw [← collects]
  constructor
  · intro ⟨commands,ok⟩
    obtain ⟨found,collected,_⟩ := placementProposals_ok ok
    exact ⟨found,collected⟩
  · intro ⟨found,collected⟩
    exact ⟨_,by rw [placementProposals,collected]; rfl⟩

def decided (state : ClusterState) (specs : List WorkloadSpec) (pod : PendingPod) : List AuditedCommand :=
  match schedule pod state with
  | .ok decision => commitScheduling pod decision.nodeId
  | .error _ =>
    if 0 < pod.priority then
      (findPreemptionPlan pod state (victimPriority specs)).elim [] (applyPreemption pod)
    else []

theorem decided_proposed (ok : placementProposals storage specs = .ok commands) (member : spec ∈ specs)
    (inside : slot ∈ spec.slots) (free : getAssignment storage slot = .ok none) :
    ∀ audited ∈ decided (buildClusterState storage) specs (pendingPod spec slot), audited ∈ commands := by
  obtain ⟨found,collected,rfl⟩ := placementProposals_ok ok
  have waiting := mem_orderPending.mpr ((collectPending_ok collected _).mpr ⟨spec,member,slot,inside,free,rfl⟩)
  intro audited made
  unfold decided at made
  split at made
  case h_1 decision chosen =>
    refine mem_append_left _ (mem_flatMap.mpr ⟨_,waiting,?_⟩)
    rw [chosen]
    exact made
  case h_2 e refused =>
    have left : pendingPod spec slot ∈ unscheduled (buildClusterState storage) (orderPending found) :=
      mem_filter.mpr ⟨waiting,by rw [refused]; rfl⟩
    split at made
    case isFalse => cases made
    case isTrue positive =>
      cases planned : findPreemptionPlan (pendingPod spec slot) (buildClusterState storage) (victimPriority specs) with
      | none => rw [planned] at made; cases made
      | some plan =>
        rw [planned] at made
        exact mem_append_right _ (mem_flatMap.mpr ⟨_,mem_preemptions.mpr ⟨left,positive,planned⟩,made⟩)

theorem passOutcome_ok {node : Node} (logId : LogId) (proposed : placementProposals node.disk specs = .ok commands) :
    ∃ placing middle next, placing.map (·.label.payload) = commands.map .normal ∧
      (∀ keyspace : Keyspace, keyspace.application = true → keyspace ∉ [Keyspace.ordinals,.placements] →
        middle.disk keyspace = node.disk keyspace) ∧
      passOutcome node logId specs = (allocateUntil middle next (serviceRoles specs)).after placing := by
  have applied := proposeUntil_ofPlacing node logId (placementProposals_ofPlacing proposed)
  have complete := proposeUntil_result node logId commands
  rw [PassOutcome.result,applied] at complete
  obtain ⟨run,payloads⟩ := proposeAll_ok complete
  refine ⟨_,(proposeUntil node logId commands).last,{ logId with index := logId.index + .ofNat commands.length },
    payloads,?_,?_⟩
  · intro keyspace inside apart
    refine (run.invariant (fun now => now.disk keyspace = node.disk keyspace)
      (fun transition => transition.label.payload ∈ commands.map EntryPayload.normal) ?_ rfl ?_).2
    · intro before entry after advances member same
      obtain ⟨audited,listed,named⟩ := mem_map.mp member
      rw [← same]
      apply advances.frame inside
      intro other payload touched
      cases named.trans payload
      exact apart ((placementProposals_ofPlacing proposed _ listed).touches touched)
    · intro transition member
      rw [← payloads]
      exact List.mem_map_of_mem member
  · rw [passOutcome,proposed]
    simp only [applied]

end WorkloadController

def Addressed (disk : Disk) (place : ServicePlace) : Prop :=
  ∃ address, getServiceAddress disk place.tenantId place.service place.role = .ok (some address)

theorem addressed_congr (same : left .dummyIps = right .dummyIps) : Addressed left place ↔ Addressed right place := by
  simp only [Addressed,getServiceAddress,readEntry,same]

theorem allocation_written
    (advances : Advances before ⟨logId,.normal (.system (.allocateServiceAddress block address))⟩ after) :
    after.disk .dummyIps = ((before.disk .dummyIps).insert (tenantBlockKey block.tenantId) (toAllocvec block)).insert
      (serviceAddressKey address.tenantId address.service address.role) (toAllocvec address) := by
  obtain ⟨writes,kind,ok,contents⟩ := advances.applied rfl
  cases ok
  rw [contents .dummyIps rfl]
  simp [put,perform,Write.on,serviceAddressKey]

theorem Addressed.kept
    (advances : Advances before ⟨logId,.normal (.system (.allocateServiceAddress block address))⟩ after)
    (addressed : Addressed before.disk place) : Addressed after.disk place := by
  obtain ⟨held,read⟩ := addressed
  obtain ⟨bytes,stored,decoded⟩ := readEntry_some.mp read
  have written := allocation_written advances
  by_cases own : place.key = serviceAddressKey address.tenantId address.service address.role
  · have replaced : (after.disk .dummyIps)[place.key]? = some (toAllocvec address) := by
      rw [written]
      exact insert_eq_some.mpr (.inl ⟨own,rfl⟩)
    exact ⟨address,readEntry_some.mpr ⟨_,replaced,fromBytes_toAllocvec _⟩⟩
  · have kept : (after.disk .dummyIps)[place.key]? = some bytes := by
      rw [written]
      exact insert_eq_some.mpr (.inr ⟨own,insert_eq_some.mpr (.inr ⟨(tenantBlockKey_ne _ place).symm,stored⟩)⟩)
    exact ⟨held,readEntry_some.mpr ⟨bytes,kept,decoded⟩⟩

theorem allocateUntil_keeps (logId : LogId) (roles : List (String × String × String))
    (addressed : Addressed node.disk place) : Addressed (allocateUntil node logId roles).last.disk place := by
  induction roles generalizing node logId with
  | nil => exact addressed
  | cons named rest ih =>
    obtain ⟨tenantId,workloadId,role⟩ := named
    rw [allocateUntil]
    split
    · exact addressed
    · exact ih logId addressed
    case h_3 audited computed =>
      split
      · exact addressed
      case h_2 applied ok =>
        obtain ⟨block,address,rfl,_⟩ := allocateServiceAddress_some computed
        exact ih (nextLogId logId) (Addressed.kept ⟨applied.2,ok⟩ addressed)

structure Provided (node : Node) (logId : LogId) (specs : List WorkloadSpec) (spec : WorkloadSpec) : Prop where
  placed : ∀ slot ∈ spec.slots, getAssignment node.disk slot = .ok none →
    ∀ audited ∈ decided (buildClusterState node.disk) specs (pendingPod spec slot),
      .normal audited ∈ (passOutcome node logId specs).trace.map (·.label.payload)
  addressed : ∀ role ∈ spec.replicas.keys,
    Addressed (passOutcome node logId specs).last.disk ⟨spec.tenantId,spec.workloadId,role⟩

def Placeable (disk : Disk) (specs : List WorkloadSpec) (spec : WorkloadSpec) : Prop :=
  ∃ slot ∈ spec.slots, getAssignment disk slot = .ok none ∧
    decided (buildClusterState disk) specs (pendingPod spec slot) ≠ []

def SlotsReadable (disk : Disk) (specs : List WorkloadSpec) : Prop :=
  ∀ spec ∈ specs, ∀ slot ∈ spec.slots, ∃ existing, getAssignment disk slot = .ok existing

def OthersReadable (disk : Disk) (tenantId : String) : Prop :=
  ∀ slot : Slot, slot.tenantId ≠ tenantId → slot.ordinal.toNat + 1 < 2 ^ 32 →
    ∃ existing, getAssignment disk slot = .ok existing

theorem passOutcome_keeps (logId : LogId) (specs : List WorkloadSpec) (addressed : Addressed node.disk place) :
    Addressed (passOutcome node logId specs).last.disk place := by
  cases proposed : placementProposals node.disk specs with
  | error e =>
    rw [passOutcome,proposed]
    exact addressed
  | ok commands =>
    obtain ⟨placing,middle,next,_,frame,outcome⟩ := passOutcome_ok logId proposed
    rw [outcome]
    exact allocateUntil_keeps next _ ((addressed_congr (frame .dummyIps rfl (by decide))).mpr addressed)

theorem passOutcome_places (logId : LogId) (readable : SlotsReadable node.disk specs) (member : spec ∈ specs)
    (inside : slot ∈ spec.slots) (free : getAssignment node.disk slot = .ok none) :
    ∀ audited ∈ decided (buildClusterState node.disk) specs (pendingPod spec slot),
      .normal audited ∈ (passOutcome node logId specs).trace.map (·.label.payload) := by
  intro audited made
  obtain ⟨commands,proposed⟩ := placementProposals_isOk.mpr readable
  obtain ⟨placing,middle,next,payloads,_,outcome⟩ := passOutcome_ok logId proposed
  rw [outcome,PassOutcome.after,List.map_append,payloads]
  exact mem_append_left _ (List.mem_map_of_mem (decided_proposed proposed member inside free audited made))

theorem Provided.readable (provided : Provided node logId specs spec) (placeable : Placeable node.disk specs spec) :
    SlotsReadable node.disk specs := by
  obtain ⟨slot,inside,free,some⟩ := placeable
  obtain ⟨audited,made⟩ := List.exists_mem_of_ne_nil _ some
  have committed := provided.placed slot inside free audited made
  cases proposed : placementProposals node.disk specs with
  | ok commands => exact placementProposals_isOk.mp ⟨commands,proposed⟩
  | error e =>
    rw [passOutcome,proposed] at committed
    cases committed

theorem provided_beside (member : spec ∈ specs.filter (·.tenantId = tenantId))
    (present : ∀ role ∈ spec.replicas.keys, Addressed node.disk ⟨spec.tenantId,spec.workloadId,role⟩)
    (readable : Placeable node.disk specs spec →
      SlotsReadable node.disk (specs.filter (·.tenantId = tenantId)) ∧ OthersReadable node.disk tenantId) :
    Provided node logId specs spec where
  addressed role inside := passOutcome_keeps logId specs (present role inside)
  placed := by
    intro slot inside free audited made
    obtain ⟨own,others⟩ := readable ⟨slot,inside,free,List.ne_nil_of_mem made⟩
    refine passOutcome_places logId ?_ (mem_filter.mp member).1 inside free audited made
    intro other listed there within
    by_cases mine : other.tenantId = tenantId
    · exact own other (mem_filter.mpr ⟨listed,by simpa using mine⟩) there within
    · obtain ⟨tenant,_,count,_,below⟩ := mem_slots.mp within
      refine others there (fun same => mine (tenant.symm.trans same)) ?_
      have bounded := count.toNat_lt
      have under := UInt32.lt_iff_toNat_lt.mp below
      omega

def blockless (tenantId : String) : WorkloadSpec :=
  { tenantId := tenantId, replicas := (∅ : ExtTreeMap String UInt32 compare).insert "" 0 }

theorem passOutcome_blockless (logId : LogId) (specs : List WorkloadSpec)
    (noBlock : (node.disk .dummyIps)[tenantBlockKey tenantId]? = none)
    (noAddress : (node.disk .dummyIps)[serviceAddressKey tenantId "" ""]? = none) :
    (passOutcome node logId (blockless tenantId::specs)).last.disk .dummyIps = node.disk .dummyIps := by
  cases proposed : placementProposals node.disk (blockless tenantId::specs) with
  | error e => rw [passOutcome,proposed]
  | ok commands =>
    obtain ⟨placing,middle,next,_,frame,outcome⟩ := passOutcome_ok logId proposed
    have same := frame .dummyIps rfl (by decide)
    have roles : serviceRoles (blockless tenantId::specs) = (tenantId,"","")::serviceRoles specs := rfl
    have address : getServiceAddress middle.disk tenantId "" "" = .ok none := readEntry_none.mpr (by rw [same,noAddress])
    have block : getTenantBlock middle.disk tenantId = .ok none := readEntry_none.mpr (by rw [same,noBlock])
    have refused : allocateServiceAddress middle.disk tenantId "" "" = .error (.tenantNotFound tenantId) := by
      simp [allocateServiceAddress,computeServiceAddressAllocation,address,block,bind,Except.bind]
    rw [outcome,roles,allocateUntil,refused]
    exact same

theorem exists_blockless (contents : Contents) (tenantId : String) :
    ∃ other, other ≠ tenantId ∧ contents[tenantBlockKey other]? = none ∧
      contents[serviceAddressKey other "" ""]? = none := by
  have unbounded : Infinite String := Infinite.of_injective Nat.repr fun _ _ => Nat.repr_inj.mp
  have stored : {key : Bytes | contents[key]? ≠ none}.Finite := by
    refine (List.finite_toSet contents.keys).subset ?_
    intro key present
    simpa [Option.isSome_iff_ne_none] using present
  have services : Function.Injective fun other => serviceAddressKey other "" "" := by
    intro left right same
    have texts := congrArg String.toList (asBytes_injective same)
    exact String.toList_inj.mp (by simpa using texts)
  have blocks : Function.Injective tenantBlockKey := fun _ _ => tenantBlockKey_injective
  have finite := ((Set.finite_singleton tenantId).union (stored.preimage blocks.injOn)).union
    (stored.preimage services.injOn)
  obtain ⟨other,outside⟩ := finite.infinite_compl.nonempty
  simp only [Set.mem_compl_iff,Set.mem_union,Set.mem_singleton_iff,Set.mem_preimage,Set.mem_ofPred_eq,not_or,
    not_not] at outside
  exact ⟨other,outside.1.1,outside.1.2,outside.2⟩

def slotSpec (slot : Slot) : WorkloadSpec :=
  { tenantId := slot.tenantId, workloadId := slot.workloadId,
    replicas := (∅ : ExtTreeMap String UInt32 compare).insert slot.role (slot.ordinal + 1) }

theorem mem_slotSpec (bounded : slot.ordinal.toNat + 1 < 2 ^ 32) : slot ∈ (slotSpec slot).slots := by
  refine mem_slots.mpr ⟨rfl,rfl,slot.ordinal + 1,by simp [slotSpec],UInt32.lt_iff_toNat_lt.mpr ?_⟩
  rw [UInt32.toNat_add,UInt32.toNat_one,Nat.mod_eq_of_lt bounded]
  exact Nat.lt_succ_self _

theorem decided_slotSpec (state : ClusterState) (slot : Slot) (specs : List WorkloadSpec) (pod : PendingPod) :
    decided state (slotSpec slot::specs) pod = decided state specs pod := by
  have priorities : victimPriority (slotSpec slot::specs) = victimPriority specs := by
    funext placement
    unfold victimPriority workloadPriorityMap
    rw [List.reverse_cons,List.find?_append]
    cases specs.reverse.find? fun spec => spec.tenantId = placement.tenantId && spec.workloadId = placement.service with
    | some listed => rfl
    | none =>
      rw [Option.none_or,List.find?_singleton]
      split <;> rfl
  rw [decided,decided,priorities]

theorem filter_beside {other : WorkloadSpec} (apart : other.tenantId ≠ tenantId) (specs : List WorkloadSpec) :
    (other::specs).filter (·.tenantId = tenantId) = specs.filter (·.tenantId = tenantId) :=
  List.filter_cons_of_neg (by simpa using apart)

/-- Exactly if each has its addresses, and no pod can be placed or every ordinal record can be read. -/
theorem tenant_isolated_iff (node : Node) (logId : LogId) (tenantId : String) (own : List WorkloadSpec)
    (ours : ∀ spec ∈ own, spec.tenantId = tenantId) :
    (∀ specs : List WorkloadSpec, specs.filter (·.tenantId = tenantId) = own →
      ∀ spec ∈ own, Provided node logId own spec → Provided node logId specs spec) ↔
    ∀ spec ∈ own, Provided node logId own spec →
      (∀ role ∈ spec.replicas.keys, Addressed node.disk ⟨tenantId,spec.workloadId,role⟩) ∧
        ((∃ specs : List WorkloadSpec, specs.filter (·.tenantId = tenantId) = own ∧ Placeable node.disk specs spec) →
          SlotsReadable node.disk own ∧ OthersReadable node.disk tenantId) := by
  constructor
  · intro isolated spec member provided
    refine ⟨?_,?_⟩
    · obtain ⟨other,apart,noBlock,noAddress⟩ := exists_blockless (node.disk .dummyIps) tenantId
      have alone : own.filter (·.tenantId = tenantId) = own := by
        rw [List.filter_eq_self]
        intro listed inside
        simpa using ours listed inside
      have kept := isolated (blockless other::own) ((filter_beside apart own).trans alone) spec member provided
      intro role inside
      have held := kept.addressed role inside
      rw [addressed_congr (passOutcome_blockless logId own noBlock noAddress),ours spec member] at held
      exact held
    · rintro ⟨specs,rfl,placeable⟩
      have read := (isolated specs rfl spec member provided).readable placeable
      refine ⟨fun listed inside => read listed (mem_filter.mp inside).1,?_⟩
      intro slot apart bounded
      have kept := isolated (slotSpec slot::specs) (filter_beside apart specs) spec member provided
      have still : Placeable node.disk (slotSpec slot::specs) spec := by
        simpa only [Placeable,decided_slotSpec] using placeable
      exact kept.readable still (slotSpec slot) mem_cons_self slot (mem_slotSpec bounded)
  · rintro safe specs rfl spec member provided
    obtain ⟨present,readable⟩ := safe spec member provided
    refine provided_beside member ?_ fun placeable => readable ⟨specs,rfl,placeable⟩
    rw [ours spec member]
    exact present

end

open Reference

def shopProvided : Node :=
  (apply (clusterOf [workerNode workerId 500 536870912 "zone-a",workerNode sparesId 500 536870912 "zone-b"])
    [commandAt 4 (.recordOrdinalAssignment ⟨"acme","shop","web",0,some "shop-web-0",some workerId.1⟩),
      commandAt 5 (.commitPlacement shopPlaced),allocateShop 6]).1

theorem decoding_readable (decodes : ((disk .ordinals).toList.all fun entry =>
    (fromBytes (α := OrdinalAssignment) entry.2).isOk) = true) (slot : Slot) :
    ∃ existing, getAssignment disk slot = .ok existing := by
  unfold getAssignment
  cases stored : (disk .ordinals)[ordinalKey slot.tenantId slot.workloadId slot.role slot.ordinal]? with
  | none => exact ⟨none,rfl⟩
  | some bytes =>
    have entry := List.all_eq_true.mp decodes _ (ExtTreeMap.mem_toList_iff_getElem?_eq_some.mpr stored)
    cases decoded : fromBytes (α := OrdinalAssignment) bytes with
    | error e => simp [decoded,Except.isOk,Except.toBool] at entry
    | ok record => exact ⟨some record,by simp only [decoded]; rfl⟩

theorem second_replica_isolated : decided (buildClusterState shopProvided.disk) [shopSpec "web" 2]
      (pendingPod (shopSpec "web" 2) ⟨"acme","shop","web",1⟩) ≠ [] ∧
    ∀ specs : List WorkloadSpec, specs.filter (·.tenantId = "acme") = [shopSpec "web" 2] →
      Provided shopProvided (logIdAt 7) specs (shopSpec "web" 2) := by
  have member : shopSpec "web" 2 ∈ [shopSpec "web" 2] := mem_singleton_self _
  have ours : ∀ spec ∈ [shopSpec "web" 2], spec.tenantId = "acme" := by simp [shopSpec]
  have roles : (shopSpec "web" 2).replicas.keys = ["web"] := by decide +kernel
  have readable : ∀ slot, ∃ existing, getAssignment shopProvided.disk slot = .ok existing :=
    decoding_readable (by decide +kernel)
  have address : getServiceAddress shopProvided.disk "acme" "shop" "web" =
      .ok (some ⟨"acme","shop","web",0xF0000000⟩) := by decide +kernel
  have present : ∀ role ∈ (shopSpec "web" 2).replicas.keys, Addressed shopProvided.disk ⟨"acme","shop",role⟩ := by
    intro role inside
    rw [roles] at inside
    obtain rfl := mem_singleton.mp inside
    exact ⟨_,address⟩
  have alone : Provided shopProvided (logIdAt 7) [shopSpec "web" 2] (shopSpec "web" 2) :=
    ⟨fun slot inside free => passOutcome_places _ (fun _ _ slot _ => readable slot) member inside free,
      fun role inside => passOutcome_keeps _ _ (present role inside)⟩
  refine ⟨by decide +kernel,fun specs listed => ?_⟩
  refine (tenant_isolated_iff shopProvided (logIdAt 7) "acme" [shopSpec "web" 2] ours).mpr ?_ specs listed _ member alone
  intro spec inside _
  obtain rfl := mem_singleton.mp inside
  exact ⟨present,fun _ => ⟨fun _ _ slot _ => readable slot,fun slot _ _ => readable slot⟩⟩

def aardvarkShop : WorkloadSpec := { shopSpec "web" 1 with tenantId := "aardvark" }

def bothStored : Node :=
  (apply (clusterOf []) [commandAt 2 (.submitWorkloadSpec (recordOf aardvarkShop)),
    commandAt 3 (.submitWorkloadSpec (recordOf (shopSpec "web" 1)))]).1

/-- The pass stops at the first address, and so does the next. -/
theorem stopped_by_aardvark : decodedWorkloads bothStored.disk = [aardvarkShop,shopSpec "web" 1] ∧
    Provided bothStored (logIdAt 4) [shopSpec "web" 1] (shopSpec "web" 1) ∧
    ¬Provided bothStored (logIdAt 4) [aardvarkShop,shopSpec "web" 1] (shopSpec "web" 1) ∧
    (passOutcome bothStored (logIdAt 4) [aardvarkShop,shopSpec "web" 1]).error =
      some (.dummyIp (.tenantNotFound "aardvark")) ∧
    ¬Provided (passOutcome bothStored (logIdAt 4) [aardvarkShop,shopSpec "web" 1]).last (logIdAt 4)
      [aardvarkShop,shopSpec "web" 1] (shopSpec "web" 1) := by
  have readable : ∀ slot, ∃ existing, getAssignment bothStored.disk slot = .ok existing :=
    decoding_readable (by decide +kernel)
  have roles : (shopSpec "web" 1).replicas.keys = ["web"] := by decide +kernel
  have address : getServiceAddress (passOutcome bothStored (logIdAt 4) [shopSpec "web" 1]).last.disk "acme" "shop" "web" =
      .ok (some ⟨"acme","shop","web",0xF0000000⟩) := by decide +kernel
  have unaddressed : ∀ {node : Node} {index : UInt64} {specs : List WorkloadSpec},
      getServiceAddress (passOutcome node (logIdAt index) specs).last.disk "acme" "shop" "web" = .ok none →
        ¬Provided node (logIdAt index) specs (shopSpec "web" 1) := by
    intro node index specs missing provided
    obtain ⟨address,found⟩ := provided.addressed "web" (by rw [roles]; exact mem_singleton_self _)
    cases missing.symm.trans found
  refine ⟨by decide +kernel,⟨?_,?_⟩,unaddressed (by decide +kernel),by decide +kernel,unaddressed (by decide +kernel)⟩
  · intro slot inside free
    exact passOutcome_places _ (fun _ _ slot _ => readable slot) (mem_singleton_self _) inside free
  · intro role inside
    rw [roles] at inside
    obtain rfl := mem_singleton.mp inside
    exact ⟨_,address⟩

end FleetosControl
