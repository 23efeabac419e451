import FleetosControl.Controllers.PodIds
import FleetosControl.Raft.EvictedNodes
import FleetosControl.Scheduler.Choice

/-! Whom a pass preempts. Workloads it was not given count as priority zero; on every node placements of
lower priority are taken in order until the pod fits. -/
namespace FleetosControl
open KeyValue WorkloadController OrdinalTracker Std

def WorkloadSpec.podRequest (spec : WorkloadSpec) : ResourceSpec := podResources (spec.podSpec.getD {})

@[simp] theorem pendingPod_priority (spec : WorkloadSpec) (slot : Slot) : (pendingPod spec slot).priority = spec.priority := by
  cases outcome : spec.podSpec <;> simp [pendingPod,buildPodSpec,WorkloadSpec.priority,outcome]

@[simp] theorem pendingPod_resources (spec : WorkloadSpec) (slot : Slot) :
    (pendingPod spec slot).resources = spec.podRequest := rfl

theorem zero_fitsWithin (available : ResourceSpec) : ResourceSpec.zero.fitsWithin available = true := by
  simp [ResourceSpec.fitsWithin,ResourceSpec.zero]

theorem fitsWithin_zero {request : ResourceSpec} (fits : request.fitsWithin .zero = true) : request = .zero := by
  obtain ⟨cpu,memory⟩ := request
  simpa [ResourceSpec.fitsWithin,ResourceSpec.zero] using fits

theorem subtract_self (request : ResourceSpec) : request.subtract (ResourceSpec.zero.add request) = .zero := by
  simp [ResourceSpec.subtract,ResourceSpec.add,ResourceSpec.zero,ResourceSpec.saturatingSub]

theorem zero_add_request (request : ResourceSpec) : ResourceSpec.zero.add request = request := by
  simp [ResourceSpec.add,ResourceSpec.zero]

section
variable [FleetosCore] {pod : PendingPod} {storage : Disk} {specs : List WorkloadSpec}

theorem mem_unscheduled : pod ∈ unscheduled state pending ↔ pod ∈ pending ∧ filterNodes pod state = [] := by
  rw [unscheduled,mem_filter,← schedule_error]
  cases schedule pod state <;> simp [Except.isOk,Except.toBool]

variable [Formats]

def Preempts (storage : Disk) (specs : List WorkloadSpec) (pod : PendingPod) (victim : Placement) : Prop :=
  ∃ found plan, collectPending storage (buildClusterState storage) specs = .ok found ∧
    (pod,plan) ∈ preemptions (buildClusterState storage) specs (unscheduled (buildClusterState storage) (orderPending found)) ∧
    victim ∈ plan.victims

theorem Preempts.ranked (preempts : Preempts storage specs pod victim) :
    ∃ spec ∈ specs, pod.priority = spec.priority ∧ 0 < spec.priority ∧ spec.slots ≠ [] ∧ spec.podRequest ≠ .zero ∧
      victimPriority specs victim < spec.priority := by
  obtain ⟨found,plan,collected,planned,evicted⟩ := preempts
  obtain ⟨left,positive,chosen⟩ := mem_preemptions.mp planned
  obtain ⟨pending,_⟩ := mem_unscheduled.mp left
  obtain ⟨spec,member,slot,inside,_,rfl⟩ := (collectPending_ok collected pod).mp (mem_orderPending.mp pending)
  obtain ⟨node,_,onNode⟩ := findPreemptionPlan_some chosen
  obtain ⟨_,_,lower,short⟩ := (planOnNode_some onNode).2 victim evicted
  rw [pendingPod_priority] at positive lower
  refine ⟨spec,member,pendingPod_priority _ _,positive,List.ne_nil_of_mem inside,?_,lower⟩
  intro nothing
  rw [pendingPod_resources,nothing,zero_fitsWithin] at short
  cases short

section
variable (workloads : Contents) (host : SpiffeId) (request : ResourceSpec) (tenantId workloadId : String)
  {pod : PendingPod}

def fullHost : NodeRecord :=
  ⟨display host,0,.active,true,0,0,request.cpuMillicores,request.memoryBytes,""⟩

def tenantPod : Placement := ⟨"",tenantId,workloadId,"",0,host,request⟩

def fullStore : Disk
  | .workloads => workloads
  | .nodes => (∅ : Contents).insert (asBytes (display host)) (toAllocvec (fullHost host request))
  | .placements => (∅ : Contents).insert (asBytes "") (toAllocvec (tenantPod host request tenantId workloadId))
  | _ => ∅

def fullNode : NodeInfo := ⟨host,request,.zero,"",true,1,[]⟩

theorem fullStore_view : buildClusterState (fullStore workloads host request tenantId workloadId) =
    ⟨[fullNode host request],[tenantPod host request tenantId workloadId]⟩ := by
  have nodes : scanRecords NodeRecord (fullStore workloads host request tenantId workloadId) .nodes =
      [fullHost host request] := by
    simp [scanRecords,fullStore,toList_single,Except.toOption]
  have placements : scanRecords Placement (fullStore workloads host request tenantId workloadId) .placements =
      [tenantPod host request tenantId workloadId] := by
    simp [scanRecords,fullStore,toList_single,Except.toOption]
  have taints : nodeTaintsOf (fullStore workloads host request tenantId workloadId) (display host) = [] := by
    simp [nodeTaintsOf,fullStore]
  have node : nodeInfo [tenantPod host request tenantId workloadId]
      (nodeTaintsOf (fullStore workloads host request tenantId workloadId)) (fullHost host request) =
        some (fullNode host request) := by
    have named : (fullHost host request).nodeId = display host := rfl
    have own : ([tenantPod host request tenantId workloadId].filter fun placement => placement.nodeId = host) =
        [tenantPod host request tenantId workloadId] := by simp [tenantPod]
    simp only [nodeInfo,named,parse_display,own,taints]
    exact congrArg some (congrArg (fun available => (⟨host,request,available,"",true,1,[]⟩ : NodeInfo))
      (subtract_self request))
  rw [buildClusterState,ClusterState.build,nodes,placements,List.filterMap_cons,node]
  rfl

variable {host request tenantId workloadId}

omit [Formats] in
theorem fullStore_admits (same : pod.resources = request) (asks : request ≠ .zero) :
    filterNodes pod ⟨[fullNode host request],[tenantPod host request tenantId workloadId]⟩ = [] := by
  have short : pod.resources.fitsWithin (fullNode host request).available = false := by
    rw [same]
    exact Bool.eq_false_iff.mpr (mt fitsWithin_zero asks)
  simp [filterNodes,ClusterState.schedulableNodes,short]

omit [Formats] in
theorem fullStore_plan {workloadPriority : Placement → Int32} (same : pod.resources = request)
    (asks : request ≠ .zero) (lower : workloadPriority (tenantPod host request tenantId workloadId) < pod.priority) :
    findPreemptionPlan pod ⟨[fullNode host request],[tenantPod host request tenantId workloadId]⟩ workloadPriority =
      some ⟨host,[tenantPod host request tenantId workloadId]⟩ := by
  have short : request.fitsWithin .zero = false := Bool.eq_false_iff.mpr (mt fitsWithin_zero asks)
  have fits : request.fitsWithin request = true := by simp [ResourceSpec.fitsWithin]
  have candidates : preemptionCandidates pod ⟨[fullNode host request],[tenantPod host request tenantId workloadId]⟩
      workloadPriority (fullNode host request) = [tenantPod host request tenantId workloadId] := by
    have here : (tenantPod host request tenantId workloadId).nodeId = (fullNode host request).nodeId := rfl
    simp [preemptionCandidates,ClusterState.placementsOnNode,here,lower]
  have taken : takeVictims pod.resources (fullNode host request).available [tenantPod host request tenantId workloadId] =
      (request,[tenantPod host request tenantId workloadId]) := by
    have freed : (fullNode host request).available.add (tenantPod host request tenantId workloadId).resources = request :=
      zero_add_request request
    have empty : (fullNode host request).available = .zero := rfl
    simp only [takeVictims,same,freed]
    rw [empty,short]
    rfl
  have planned : planOnNode pod ⟨[fullNode host request],[tenantPod host request tenantId workloadId]⟩ workloadPriority
      (fullNode host request) = some ⟨host,[tenantPod host request tenantId workloadId]⟩ := by
    have untainted : passesTaintFilter pod.tolerations (fullNode host request).taints = true := rfl
    rw [planOnNode,untainted,candidates,taken,same]
    simp only [Bool.not_true,Bool.false_eq_true,↓reduceIte,fits]
    rfl
  have nodes : ClusterState.schedulableNodes ⟨[fullNode host request],[tenantPod host request tenantId workloadId]⟩ =
      [fullNode host request] := rfl
  rw [findPreemptionPlan,nodes,List.foldl_cons,planned]
  rfl

theorem fullStore_preempts (member : spec ∈ specs) (inside : slot ∈ spec.slots) (positive : 0 < spec.priority)
    (asks : spec.podRequest ≠ .zero)
    (lower : (workloadPriorityMap specs tenantId workloadId).getD 0 < spec.priority) :
    Preempts (fullStore workloads host spec.podRequest tenantId workloadId) specs (pendingPod spec slot)
      (tenantPod host spec.podRequest tenantId workloadId) := by
  have free : ∀ slot, getAssignment (fullStore workloads host spec.podRequest tenantId workloadId) slot = .ok none := by
    intro slot
    simp [getAssignment,fullStore]
  have collects : ∃ found, collectPending (fullStore workloads host spec.podRequest tenantId workloadId)
      (buildClusterState (fullStore workloads host spec.podRequest tenantId workloadId)) specs = .ok found :=
    collectPending_isOk.mpr fun _ _ slot _ => ⟨none,free slot⟩
  obtain ⟨found,collected⟩ := collects
  refine ⟨found,⟨host,[tenantPod host spec.podRequest tenantId workloadId]⟩,collected,?_,mem_singleton_self _⟩
  have pending := (collectPending_ok collected _).mpr ⟨spec,member,slot,inside,free slot,rfl⟩
  rw [mem_preemptions,mem_unscheduled,mem_orderPending,pendingPod_priority,fullStore_view]
  refine ⟨⟨pending,fullStore_admits rfl asks⟩,positive,fullStore_plan rfl asks ?_⟩
  rw [pendingPod_priority]
  exact lower

end

/-- Exactly if no stored priority that the pass takes for lower reaches that of a preempting one. -/
theorem preempts_lower_iff [Nonempty SpiffeId] (workloads : Contents) (specs : List WorkloadSpec) :
    (∀ storage pod victim stored, storage .workloads = workloads → Preempts storage specs pod victim →
      lookupWorkloadSpec storage victim.tenantId victim.service = some stored → stored.priority < pod.priority) ↔
    ∀ spec ∈ specs, 0 < spec.priority → spec.slots ≠ [] → spec.podRequest ≠ .zero → ∀ tenantId workloadId stored,
        workloads[workloadKey tenantId workloadId]?.bind storedSpec = some stored →
        (workloadPriorityMap specs tenantId workloadId).getD 0 < spec.priority → stored.priority < spec.priority := by
  constructor
  · intro safe spec member positive wanted asks tenantId workloadId stored found lower
    obtain ⟨host⟩ := ‹Nonempty SpiffeId›
    obtain ⟨slot,inside⟩ := List.exists_mem_of_ne_nil _ wanted
    have preempts : Preempts (fullStore workloads host spec.podRequest tenantId workloadId) specs (pendingPod spec slot)
        (tenantPod host spec.podRequest tenantId workloadId) :=
      fullStore_preempts workloads member inside positive asks lower
    have kept := safe _ _ _ stored rfl preempts found
    rwa [pendingPod_priority] at kept
  · rintro ranked storage pod victim stored rfl preempts found
    obtain ⟨spec,member,same,positive,wanted,asks,lower⟩ := preempts.ranked
    rw [same]
    exact ranked spec member positive wanted asks _ _ stored found lower

end

section
open Reference

def prioritySpec (workloadId : String) (priority : Int32) : WorkloadSpec :=
  { tenantId := "acme"
    workloadId := workloadId
    image := "shop:v1"
    replicas := (∅ : ExtTreeMap String UInt32 compare).insert "web" 1
    podSpec := some { priority := priority } }

def recordOf (spec : WorkloadSpec) : WorkloadSpecRecord := ⟨spec.tenantId,spec.workloadId,encodeWorkloadSpec spec,[]⟩

def shopStored : Contents := (∅ : Contents).insert (workloadKey "acme" "shop") (toAllocvec (recordOf (prioritySpec "shop" 1)))

theorem shopStored_only (found : shopStored[workloadKey tenantId workloadId]?.bind storedSpec = some stored) :
    stored = prioritySpec "shop" 1 := by
  obtain ⟨bytes,lookup,read⟩ := Option.bind_eq_some_iff.mp found
  rcases insert_eq_some.mp lookup with ⟨_,rfl⟩ | ⟨_,missing⟩
  · obtain ⟨record,decoded,spec⟩ := storedSpec_some.mp read
    rw [fromBytes_iff] at decoded
    subst decoded
    rw [recordOf,WorkloadMessages.decode_encode,Except.ok.injEq] at spec
    exact spec.symm
  · simp at missing

def shopPlaced : Placement := ⟨"shop-web-0","acme","shop","web",0,workerId,⟨500,536870912⟩⟩

def shopRunning (priority : Int32) : Node :=
  (reconciled (apply (clusterOf [workerNode workerId 500 536870912 "zone-a"])
    [commandAt 3 (.submitWorkloadSpec (recordOf (prioritySpec "shop" priority)))]).1 4 [prioritySpec "shop" priority]).2

def webPod (workloadId : String) (priority : Int32) : PendingPod :=
  pendingPod (prioritySpec workloadId priority) ⟨"acme",workloadId,"web",0⟩

theorem report_preempts_lower_shop :
    Preempts (shopRunning 1).disk [prioritySpec "report" 5] (webPod "report" 5) shopPlaced ∧
      (prioritySpec "shop" 1).priority < (webPod "report" 5).priority := by
  have : Nonempty SpiffeId := ⟨workerId⟩
  have preempts : Preempts (shopRunning 1).disk [prioritySpec "report" 5] (webPod "report" 5) shopPlaced :=
    ⟨[webPod "report" 5],⟨workerId,[shopPlaced]⟩,by decide +kernel,by decide +kernel,mem_singleton_self _⟩
  refine ⟨preempts,(preempts_lower_iff shopStored [prioritySpec "report" 5]).mpr ?_ _ _ _ _ (by decide +kernel) preempts
    (by decide +kernel)⟩
  intro spec member _ _ _ tenantId workloadId stored found _
  rw [mem_singleton.mp member,shopStored_only found]
  decide

def cronTriggered : Node :=
  (apply (shopRunning 10)
    [commandAt 7 (.triggerCronWorkload (recordOf (prioritySpec "report-1700000000" 1)) ⟨"acme","report",1700000000⟩)]).1

theorem cron_run_preempts_shop :
    Preempts cronTriggered.disk [prioritySpec "report-1700000000" 1] (webPod "report-1700000000" 1) shopPlaced ∧
    lookupWorkloadSpec cronTriggered.disk shopPlaced.tenantId shopPlaced.service = some (prioritySpec "shop" 10) ∧
    ¬(prioritySpec "shop" 10).priority < (webPod "report-1700000000" 1).priority := by
  refine ⟨⟨[webPod "report-1700000000" 1],⟨workerId,[shopPlaced]⟩,by decide +kernel,by decide +kernel,
    mem_singleton_self _⟩,by decide +kernel,by decide⟩

end

open Selection

section
variable [FleetosCore]

def ClusterState.lowerOn (state : ClusterState) (pod : PendingPod) (workloadPriority : Placement → Int32) (node : NodeInfo) :
    List Placement :=
  (state.placementsOnNode node.nodeId).filter fun placement => workloadPriority placement < pod.priority

structure Eligible (pod : PendingPod) (state : ClusterState) (node : NodeInfo) : Prop where
  schedulable : node ∈ state.schedulableNodes
  tolerated : passesTaintFilter pod.tolerations node.taints = true

def FitsWithout (pod : PendingPod) (state : ClusterState) (node : NodeInfo) (removed : List Placement) : Prop :=
  ∀ dimension : Dimension, (dimension.amount pod.resources).toNat +
    (((state.placementsOnNode node.nodeId).diff removed).map fun placement =>
      (dimension.amount placement.resources).toNat).sum ≤ (dimension.amount node.capacity).toNat

instance (pod : PendingPod) (state : ClusterState) (node : NodeInfo) (removed : List Placement) :
    Decidable (FitsWithout pod state node removed) := inferInstanceAs (Decidable (∀ _ : Dimension, _ ≤ _))

def NodeInfo.freed (node : NodeInfo) (removed : List Placement) : ResourceSpec :=
  removed.foldl (fun available victim => available.add victim.resources) node.available

/-- The plan for one node: the first placements of lower priority that are enough, and no fewer. -/
structure NodePlan (pod : PendingPod) (state : ClusterState) (workloadPriority : Placement → Int32) (node : NodeInfo)
    (plan : PreemptionPlan) : Prop where
  onNode : plan.nodeId = node.nodeId
  front : plan.victims <+: preemptionCandidates pod state workloadPriority node
  fits : FitsWithout pod state node plan.victims
  short : ∀ fewer, fewer <+: plan.victims → fewer ≠ plan.victims → ¬FitsWithout pod state node fewer

def PreemptionPlan.prioritySum (workloadPriority : Placement → Int32) (plan : PreemptionPlan) : Int :=
  (plan.victims.map fun victim => (workloadPriority victim).toInt).sum

/-- By the number of victims, then the sum of their priorities, then the text of the node's id. -/
def PreemptionPlan.NoWorse (workloadPriority : Placement → Int32) (plan other : PreemptionPlan) : Prop :=
  plan.victims.length < other.victims.length ∨ plan.victims.length = other.victims.length ∧
    (plan.prioritySum workloadPriority < other.prioritySum workloadPriority ∨
      plan.prioritySum workloadPriority = other.prioritySum workloadPriority ∧
        textCmp (display plan.nodeId) (display other.nodeId) ≠ .gt)

def planCmp (workloadPriority : Placement → Int32) : PreemptionPlan → PreemptionPlan → Ordering :=
  compareLex (compareOn fun plan => plan.victims.length) (compareLex (compareOn fun plan => plan.prioritySum workloadPriority)
    (compareOn fun plan => asBytes (display plan.nodeId)))

instance (workloadPriority : Placement → Int32) : TransCmp (α := PreemptionPlan) (planCmp workloadPriority) :=
  inferInstanceAs (TransCmp (compareLex _ (compareLex _ _)))

section
variable {pod : PendingPod} {state : ClusterState} {workloadPriority : Placement → Int32} {node : NodeInfo}
  {plan other : PreemptionPlan}

theorem planCmp_isLE : (planCmp workloadPriority plan other).isLE = true ↔ plan.NoWorse workloadPriority other := by
  have texts := textCmp_isLE (display plan.nodeId) (display other.nodeId)
  have sums := isLE_then (plan.prioritySum workloadPriority) (other.prioritySum workloadPriority)
    (textCmp (display plan.nodeId) (display other.nodeId))
  have counts := isLE_then plan.victims.length other.victims.length
    ((compare (plan.prioritySum workloadPriority) (other.prioritySum workloadPriority)).then
      (textCmp (display plan.nodeId) (display other.nodeId)))
  rw [sums,texts] at counts
  exact counts

theorem betterPlan_eq (best found : Option PreemptionPlan) :
    betterPlan workloadPriority best found = keepBest (planCmp workloadPriority) best found := by
  cases found with
  | none => rfl
  | some plan =>
    cases best with
    | none => rfl
    | some kept =>
      simp only [betterPlan,keepBest,PreemptionPlan.better,decide_eq_true_eq]
      rfl

theorem findPreemptionPlan_isSome : (findPreemptionPlan pod state workloadPriority).isSome = true ↔
    ∃ node ∈ state.schedulableNodes, ∃ plan, planOnNode pod state workloadPriority node = some plan := by
  simp only [findPreemptionPlan,betterPlan_eq,foldl_keepBest_isSome,Option.isSome_none,Bool.false_or,List.any_eq_true,
    Option.isSome_iff_exists]

theorem findPreemptionPlan_least (found : findPreemptionPlan pod state workloadPriority = some plan) :
    Least (planCmp workloadPriority) (state.schedulableNodes.filterMap (planOnNode pod state workloadPriority)) plan := by
  simp only [findPreemptionPlan,betterPlan_eq] at found
  exact foldl_keepBest_least found

theorem takeVictims_eq (request available : ResourceSpec) (candidates : List Placement) :
    takeVictims request available candidates =
      takeUntil request.fitsWithin (fun available victim => available.add victim.resources) available candidates := by
  induction candidates generalizing available with
  | nil => rfl
  | cons victim rest ih => rw [takeVictims,takeUntil,ih]

theorem takeVictims_taken (pod : PendingPod) (node : NodeInfo) (candidates : List Placement) :
    ∃ victims, takeVictims pod.resources node.available candidates = (node.freed victims,victims) ∧ victims <+: candidates ∧
      (∀ fewer, fewer <+: victims → fewer ≠ victims → pod.resources.fitsWithin (node.freed fewer) = false) ∧
      ∀ front, front <+: candidates → pod.resources.fitsWithin (node.freed front) = true →
        victims <+: front ∧ pod.resources.fitsWithin (node.freed victims) = true := by
  have taken := takeUntil_taken pod.resources.fitsWithin
    (fun available (victim : Placement) => available.add victim.resources) node.available candidates
  rw [← takeVictims_eq] at taken
  have final := taken.final_eq
  refine ⟨_,Prod.ext final rfl,taken.front,taken.short,fun front first reached => ?_⟩
  have enough := taken.reaches first reached
  rw [final] at enough
  exact enough

theorem planOnNode_iff : planOnNode pod state workloadPriority node = some plan ↔
    passesTaintFilter pod.tolerations node.taints = true ∧ plan.nodeId = node.nodeId ∧
      plan.victims <+: preemptionCandidates pod state workloadPriority node ∧
      pod.resources.fitsWithin (node.freed plan.victims) = true ∧
      ∀ fewer, fewer <+: plan.victims → fewer ≠ plan.victims → pod.resources.fitsWithin (node.freed fewer) = false := by
  obtain ⟨victims,taken,front,short,reaches⟩ :=
    takeVictims_taken pod node (preemptionCandidates pod state workloadPriority node)
  obtain ⟨nodeId,planned⟩ := plan
  simp only [planOnNode,taken]
  constructor
  · intro chosen
    split at chosen
    · cases chosen
    case isFalse tolerated =>
      split at chosen
      case isFalse => cases chosen
      case isTrue fits =>
        cases chosen
        exact ⟨by simpa using tolerated,rfl,front,fits,short⟩
  · rintro ⟨tolerated,rfl,first,fits,shortest⟩
    obtain ⟨shorter,enough⟩ := reaches planned first fits
    have same : victims = planned := by
      by_contra different
      rw [shortest victims shorter different] at enough
      cases enough
    subst same
    simp [tolerated,fits]

theorem plan_reaches (eligible : Eligible pod state node)
    (first : front <+: preemptionCandidates pod state workloadPriority node)
    (enough : pod.resources.fitsWithin (node.freed front) = true) :
    ∃ plan, planOnNode pod state workloadPriority node = some plan ∧ plan.victims.length ≤ front.length := by
  obtain ⟨victims,_,taken,short,reaches⟩ :=
    takeVictims_taken pod node (preemptionCandidates pod state workloadPriority node)
  obtain ⟨shorter,sufficient⟩ := reaches front first enough
  exact ⟨⟨node.nodeId,victims⟩,planOnNode_iff.mpr ⟨eligible.tolerated,rfl,taken,sufficient,short⟩,shorter.length_le⟩

end

def NotOvercommitted (state : ClusterState) : Prop :=
  ∀ node ∈ state.nodes, ∀ dimension : Dimension,
    placedLoad dimension state.placements node.nodeId ≤ (dimension.amount node.capacity).toNat

instance (state : ClusterState) : Decidable (NotOvercommitted state) :=
  inferInstanceAs (Decidable (∀ node ∈ state.nodes, ∀ _ : Dimension, _ ≤ _))

section
variable {pod : PendingPod} {records : List NodeRecord} {placements : List Placement}
  {nodeTaints : String → List NodeTaint} {workloadPriority : Placement → Int32} {node : NodeInfo}
  {removed : List Placement} {state : ClusterState}

theorem freed_toNat (node : NodeInfo) (removed : List Placement) (dimension : Dimension) :
    (dimension.amount (node.freed removed)).toNat = ((dimension.amount node.available).toNat +
      (removed.map fun placement => (dimension.amount placement.resources).toNat).sum) % 2 ^ 64 := by
  have added : node.freed removed = (removed.map (·.resources)).foldl .add node.available := List.foldl_map.symm
  rw [added,ResourceSpec.foldl_add_toNat,List.map_map]
  rfl

theorem fitsWithin_freed (within : NotOvercommitted (.build records placements nodeTaints))
    (member : node ∈ (ClusterState.build records placements nodeTaints).nodes)
    (inside : removed.Subperm ((ClusterState.build records placements nodeTaints).placementsOnNode node.nodeId)) :
    pod.resources.fitsWithin (node.freed removed) = true ↔
      FitsWithout pod (.build records placements nodeTaints) node removed := by
  rw [ResourceSpec.fitsWithin_iff]
  apply forall_congr'
  intro dimension
  have bound : placedLoad dimension placements node.nodeId ≤ (dimension.amount node.capacity).toNat :=
    within node member dimension
  have range := (dimension.amount node.capacity).toNat_lt
  have small : placedLoad dimension placements node.nodeId < 2 ^ 64 := by omega
  have split := sum_diff (fun placement : Placement => (dimension.amount placement.resources).toNat) inside
  change _ = placedLoad dimension placements node.nodeId at split
  have available : (dimension.amount node.available).toNat =
      (dimension.amount node.capacity).toNat - placedLoad dimension placements node.nodeId := by
    obtain ⟨record,_,made⟩ := mem_filterMap.mp member
    obtain ⟨nodeId,_,rfl⟩ := nodeInfo_iff.mp made
    exact placed_available record.capacity small
  rw [UInt64.le_iff_toNat_le,freed_toNat,available,Nat.mod_eq_of_lt (by omega)]
  omega

theorem fitsWithout_mono (more : removed.Subperm many) (inside : many.Subperm (state.placementsOnNode node.nodeId))
    (fits : FitsWithout pod state node removed) :
    FitsWithout pod state node many := by
  intro dimension
  have few := fits dimension
  have rest := sum_diff (fun placement : Placement => (dimension.amount placement.resources).toNat) inside
  have other := sum_diff (fun placement : Placement => (dimension.amount placement.resources).toNat) (more.trans inside)
  have added := sum_diff (fun placement : Placement => (dimension.amount placement.resources).toNat) more
  omega

theorem prefix_subperm (first : front <+: preemptionCandidates pod state workloadPriority node) :
    front.Subperm (state.lowerOn pod workloadPriority node) :=
  first.sublist.subperm.trans (List.perm_insertionSort _ _).subperm

theorem lowerOn_subperm (state : ClusterState) :
    (state.lowerOn pod workloadPriority node).Subperm (state.placementsOnNode node.nodeId) :=
  List.filter_sublist.subperm

theorem planOnNode_nodePlan (within : NotOvercommitted (.build records placements nodeTaints))
    (member : node ∈ (ClusterState.build records placements nodeTaints).nodes) :
    planOnNode pod (.build records placements nodeTaints) workloadPriority node = some plan ↔
      passesTaintFilter pod.tolerations node.taints = true ∧
        NodePlan pod (.build records placements nodeTaints) workloadPriority node plan := by
  have fits {front : List Placement} (first : front <+: preemptionCandidates pod (.build records placements nodeTaints)
      workloadPriority node) : pod.resources.fitsWithin (node.freed front) = true ↔
        FitsWithout pod (.build records placements nodeTaints) node front :=
    fitsWithin_freed within member ((prefix_subperm first).trans (lowerOn_subperm _))
  rw [planOnNode_iff]
  constructor
  · rintro ⟨tolerated,onNode,first,enough,short⟩
    refine ⟨tolerated,onNode,first,(fits first).mp enough,fun fewer shorter proper fitting => ?_⟩
    have lacking := short fewer shorter proper
    rw [(fits (shorter.trans first)).mpr fitting] at lacking
    cases lacking
  · rintro ⟨tolerated,onNode,first,enough,short⟩
    refine ⟨tolerated,onNode,first,(fits first).mpr enough,fun fewer shorter proper => ?_⟩
    have lacking := mt (fits (shorter.trans first)).mp (short fewer shorter proper)
    simpa using lacking

end

/-- There is a plan exactly if one is needed and possible, and no plan for another node is better. -/
theorem preemption_exact (pod : PendingPod) (records : List NodeRecord) (placements : List Placement)
    (nodeTaints : String → List NodeTaint) (workloadPriority : Placement → Int32)
    (within : NotOvercommitted (.build records placements nodeTaints)) :
    ((∃ plan, findPreemptionPlan pod (.build records placements nodeTaints) workloadPriority = some plan) ↔
      ∃ node, Eligible pod (.build records placements nodeTaints) node ∧ FitsWithout pod (.build records placements nodeTaints)
        node ((ClusterState.build records placements nodeTaints).lowerOn pod workloadPriority node)) ∧
    ∀ plan, findPreemptionPlan pod (.build records placements nodeTaints) workloadPriority = some plan →
      ∃ node, Eligible pod (.build records placements nodeTaints) node ∧
        NodePlan pod (.build records placements nodeTaints) workloadPriority node plan ∧
        plan.victims.Subperm ((ClusterState.build records placements nodeTaints).placementsOnNode node.nodeId) ∧
        (placements.Nodup → plan.victims.Nodup) ∧ (∀ victim ∈ plan.victims, workloadPriority victim < pod.priority) ∧
        ∀ other otherPlan, Eligible pod (.build records placements nodeTaints) other →
          NodePlan pod (.build records placements nodeTaints) workloadPriority other otherPlan →
            plan.NoWorse workloadPriority otherPlan := by
  have listed {node : NodeInfo} (member : node ∈ (ClusterState.build records placements nodeTaints).schedulableNodes) :
      node ∈ (ClusterState.build records placements nodeTaints).nodes := List.mem_of_mem_filter member
  refine ⟨?_,?_⟩
  · rw [← Option.isSome_iff_exists,findPreemptionPlan_isSome]
    constructor
    · rintro ⟨node,schedulable,plan,planned⟩
      obtain ⟨tolerated,_,first,fits,_⟩ := (planOnNode_nodePlan within (listed schedulable)).mp planned
      exact ⟨node,⟨schedulable,tolerated⟩,fitsWithout_mono (prefix_subperm first) (lowerOn_subperm _) fits⟩
    · rintro ⟨node,eligible,fits⟩
      have same := (List.perm_insertionSort (YieldsBefore workloadPriority)
        ((ClusterState.build records placements nodeTaints).lowerOn pod workloadPriority node)).symm
      have inside := same.symm.subperm.trans (lowerOn_subperm _)
      have enough := (fitsWithin_freed within (listed eligible.schedulable) inside).mpr
        (fitsWithout_mono same.subperm inside fits)
      obtain ⟨plan,planned,_⟩ := plan_reaches eligible List.prefix_rfl enough
      exact ⟨node,eligible.schedulable,plan,planned⟩
  · intro plan found
    obtain ⟨member,least⟩ := findPreemptionPlan_least found
    obtain ⟨node,schedulable,planned⟩ := mem_filterMap.mp member
    obtain ⟨tolerated,nodePlan⟩ := (planOnNode_nodePlan within (listed schedulable)).mp planned
    have lower := prefix_subperm nodePlan.front
    have inside := lower.trans (lowerOn_subperm _)
    refine ⟨node,⟨schedulable,tolerated⟩,nodePlan,inside,?_,?_,?_⟩
    · intro distinct
      obtain ⟨arranged,same,sublist⟩ := inside
      exact same.nodup_iff.mp (sublist.nodup (distinct.filter _))
    · intro victim chosen
      have yields := List.of_mem_filter (lower.subset chosen)
      exact of_decide_eq_true yields
    · intro other otherPlan eligible plans
      have another := (planOnNode_nodePlan within (listed eligible.schedulable)).mpr ⟨eligible.tolerated,plans⟩
      exact planCmp_isLE.mp (least otherPlan (mem_filterMap.mpr ⟨other,eligible.schedulable,another⟩))

theorem plan_fewest {workloadPriority : Placement → Int32}
    (found : findPreemptionPlan pod state workloadPriority = some plan) (eligible : Eligible pod state node)
    (first : front <+: preemptionCandidates pod state workloadPriority node)
    (enough : pod.resources.fitsWithin (node.freed front) = true) : plan.victims.length ≤ front.length := by
  obtain ⟨short,planned,shorter⟩ := plan_reaches eligible first enough
  have best := (findPreemptionPlan_least found).least short (mem_filterMap.mpr ⟨node,eligible.schedulable,planned⟩)
  rcases planCmp_isLE.mp best with less | ⟨same,_⟩
  · exact less.le.trans shorter
  · exact same.le.trans shorter

/-- Exactly if, wherever some placements make room, as many of the first ones of some node do. -/
theorem fewest_victims_iff (pod : PendingPod) (state : ClusterState) (workloadPriority : Placement → Int32)
    (plan : PreemptionPlan) (found : findPreemptionPlan pod state workloadPriority = some plan) :
    (∀ node chosen, Eligible pod state node → chosen.Subperm (state.lowerOn pod workloadPriority node) →
      FitsWithout pod state node chosen → plan.victims.length ≤ chosen.length) ↔
    ∀ node chosen, Eligible pod state node → chosen.Subperm (state.lowerOn pod workloadPriority node) →
      FitsWithout pod state node chosen → ∃ other front, Eligible pod state other ∧
        front <+: preemptionCandidates pod state workloadPriority other ∧ front.length ≤ chosen.length ∧
        pod.resources.fitsWithin (other.freed front) = true := by
  constructor
  · intro fewest node chosen eligible inside fits
    obtain ⟨other,schedulable,planned⟩ := mem_filterMap.mp (findPreemptionPlan_least found).member
    obtain ⟨tolerated,_,first,enough,_⟩ := planOnNode_iff.mp planned
    exact ⟨other,plan.victims,⟨schedulable,tolerated⟩,first,fewest node chosen eligible inside fits,enough⟩
  · intro reached node chosen eligible inside fits
    obtain ⟨other,front,host,first,few,enough⟩ := reached node chosen eligible inside fits
    exact (plan_fewest found host first enough).trans few

end

open Reference

def batchPod : Placement := ⟨"batch-0","acme","batch","web",0,workerId,⟨100,0⟩⟩

def cachePod : Placement := ⟨"cache-0","acme","cache","web",0,workerId,⟨900,0⟩⟩

def urgentPod : PendingPod := ⟨"shop-web-0","acme","shop","web",0,⟨900,0⟩,10,[]⟩

def rankOf (placement : Placement) : Int32 := if placement.service = "batch" then 1 else 5

def fullRecords : List NodeRecord := [workerNode workerId 1000 0 "zone-a"]

def fullWorker : ClusterState := .build fullRecords [batchPod,cachePod] fun _ => []

def cachedWorker : ClusterState := .build fullRecords [cachePod] fun _ => []

def workerOf (placements : List Placement) : NodeInfo :=
  .ofRecord placements (fun _ => []) (workerNode workerId 1000 0 "zone-a") workerId

theorem worker_plan : NotOvercommitted fullWorker ∧ ∃ node, Eligible urgentPod fullWorker node ∧
    NodePlan urgentPod fullWorker rankOf node ⟨workerId,[batchPod,cachePod]⟩ := by
  have within : NotOvercommitted fullWorker := by decide +kernel
  obtain ⟨node,eligible,planned,_⟩ :=
    (preemption_exact urgentPod fullRecords [batchPod,cachePod] (fun _ => []) rankOf within).2
    ⟨workerId,[batchPod,cachePod]⟩ (by decide +kernel)
  exact ⟨within,node,eligible,planned⟩

theorem worker_eligible (placements : List Placement) :
    Eligible urgentPod (.build fullRecords placements fun _ => []) (workerOf placements) :=
  ⟨mem_filter.mpr ⟨mem_filterMap.mpr ⟨_,mem_cons_self,nodeInfo_parsed (by decide +kernel)⟩,rfl⟩,rfl⟩

theorem batch_evicted_needlessly : findPreemptionPlan urgentPod fullWorker rankOf = some ⟨workerId,[batchPod,cachePod]⟩ ∧
    ¬∀ node chosen, Eligible urgentPod fullWorker node → chosen.Subperm (fullWorker.lowerOn urgentPod rankOf node) →
      FitsWithout urgentPod fullWorker node chosen → [batchPod,cachePod].length ≤ chosen.length := by
  refine ⟨by decide +kernel,fun fewest => ?_⟩
  have one := fewest (workerOf [batchPod,cachePod]) [cachePod] (worker_eligible _) (by decide +kernel) (by decide +kernel)
  revert one
  decide

theorem cache_evicted : findPreemptionPlan urgentPod cachedWorker rankOf = some ⟨workerId,[cachePod]⟩ ∧
    ∀ node chosen, Eligible urgentPod cachedWorker node → chosen.Subperm (cachedWorker.lowerOn urgentPod rankOf node) →
      FitsWithout urgentPod cachedWorker node chosen → [cachePod].length ≤ chosen.length := by
  have found : findPreemptionPlan urgentPod cachedWorker rankOf = some ⟨workerId,[cachePod]⟩ := by decide +kernel
  refine ⟨found,(fewest_victims_iff urgentPod cachedWorker rankOf ⟨workerId,[cachePod]⟩ found).mpr ?_⟩
  intro node chosen eligible inside fits
  have single : cachedWorker.schedulableNodes = [workerOf [cachePod]] := rfl
  obtain rfl : node = workerOf [cachePod] := mem_singleton.mp (single ▸ eligible.schedulable)
  refine ⟨workerOf [cachePod],[cachePod],worker_eligible _,by decide +kernel,?_,by decide +kernel⟩
  cases chosen with
  | nil =>
    revert fits
    decide +kernel
  | cons victim rest => simp

end FleetosControl
