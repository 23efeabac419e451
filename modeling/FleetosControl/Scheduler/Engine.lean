import Mathlib.Data.List.Sort
import FleetosControl.Raft.ApplyCommand

/-! The scheduler's view of the cluster, its filters, its choice among the nodes that pass, and the
search for pods to preempt. Scores are exact rationals. -/
namespace FleetosControl

namespace ResourceSpec

def zero : ResourceSpec := ⟨0,0⟩

def fitsWithin (request available : ResourceSpec) : Bool :=
  request.cpuMillicores ≤ available.cpuMillicores && request.memoryBytes ≤ available.memoryBytes

def saturatingSub (left right : UInt64) : UInt64 := if left < right then 0 else left - right

def subtract (left right : ResourceSpec) : ResourceSpec :=
  ⟨saturatingSub left.cpuMillicores right.cpuMillicores,saturatingSub left.memoryBytes right.memoryBytes⟩

def add (left right : ResourceSpec) : ResourceSpec :=
  ⟨left.cpuMillicores + right.cpuMillicores,left.memoryBytes + right.memoryBytes⟩

end ResourceSpec

def NodeRecord.capacity (record : NodeRecord) : ResourceSpec := ⟨record.capacityCpuMillicores,record.capacityMemoryBytes⟩

def tolerates (tol : Toleration) (taint : NodeTaint) : Bool :=
  if !tol.effect.isEmpty && tol.effect ≠ taint.effect then false
  else if tol.key.isEmpty then tol.operator = "Exists"
  else if tol.key ≠ taint.key then false
  else if tol.operator = "Exists" then true
  else if tol.operator = "" || tol.operator = "Equal" then tol.value = taint.value
  else false

def isTolerated (tolerations : List Toleration) (taint : NodeTaint) : Bool := tolerations.any (tolerates · taint)

def passesTaintFilter (tolerations : List Toleration) (nodeTaints : List NodeTaint) : Bool :=
  (nodeTaints.filter fun taint => taint.effect = "NoSchedule" || taint.effect = "NoExecute").all (isTolerated tolerations)

section
variable [FleetosCore]

structure NodeInfo where
  nodeId : SpiffeId
  capacity : ResourceSpec
  available : ResourceSpec
  failureDomain : String
  schedulable : Bool
  podCount : UInt32
  taints : List NodeTaint

structure ClusterState where
  nodes : List NodeInfo
  placements : List Placement

structure PendingPod where
  podId : String
  tenantId : String
  service : String
  role : String
  ordinal : UInt32
  resources : ResourceSpec
  priority : Int32
  tolerations : List Toleration
  deriving DecidableEq

namespace ClusterState

def nodeInfo (placements : List Placement) (nodeTaints : String → List NodeTaint) (record : NodeRecord) :
    Option NodeInfo :=
  match parse record.nodeId with
  | .error _ => none
  | .ok nodeId =>
    let own := placements.filter fun placement => placement.nodeId = nodeId
    let capacity : ResourceSpec := ⟨record.capacityCpuMillicores,record.capacityMemoryBytes⟩
    some {
      nodeId := nodeId
      capacity := capacity
      available := capacity.subtract ((own.map (·.resources)).foldl .add .zero)
      failureDomain := record.failureDomain
      schedulable := record.schedulable && record.status = .active
      podCount := UInt32.ofNat own.length
      taints := nodeTaints record.nodeId }

def build (nodeRecords : List NodeRecord) (placements : List Placement) (nodeTaints : String → List NodeTaint) :
    ClusterState :=
  ⟨nodeRecords.filterMap (nodeInfo placements nodeTaints),placements⟩

def schedulableNodes (state : ClusterState) : List NodeInfo := state.nodes.filter (·.schedulable)

def findNode (state : ClusterState) (nodeId : SpiffeId) : Option NodeInfo := state.nodes.find? (·.nodeId = nodeId)

def placementsForServiceRole (state : ClusterState) (service role : String) : List Placement :=
  state.placements.filter fun placement => placement.service = service && placement.role = role

end ClusterState

export ClusterState (nodeInfo)

structure AntiAffinityConfig where
  crossZone : Bool
  enforcedRoles : List String

def AntiAffinityConfig.default : AntiAffinityConfig := ⟨true,["replica"]⟩

def checkAntiAffinity (pod : PendingPod) (node : NodeInfo) (state : ClusterState) (config : AntiAffinityConfig) : Bool :=
  !config.enforcedRoles.contains pod.role ||
    (state.placementsForServiceRole pod.service pod.role).all fun placement =>
      placement.nodeId ≠ node.nodeId &&
        !(config.crossZone && (state.findNode placement.nodeId).any (·.failureDomain = node.failureDomain))

def filterNodes (pod : PendingPod) (state : ClusterState) : List NodeInfo :=
  state.schedulableNodes.filter fun node =>
    pod.resources.fitsWithin node.available && checkAntiAffinity pod node state .default &&
      passesTaintFilter pod.tolerations node.taints

variable [Formats]

def nodeTaintsOf (storage : Disk) (nodeId : String) : List NodeTaint :=
  ((storage .nodeTaints)[asBytes nodeId]?.bind fun bytes => (fromBytes (α := List NodeTaint) bytes).toOption).getD []

def buildClusterState (storage : Disk) : ClusterState :=
  .build (scanRecords NodeRecord storage .nodes) (scanRecords Placement storage .placements) (nodeTaintsOf storage)

def NodeInfo.fixed (node : NodeInfo) : SpiffeId × ResourceSpec × String := (node.nodeId,node.capacity,node.failureDomain)

theorem fixed_congr (same : left .nodes = right .nodes) :
    (buildClusterState left).nodes.map NodeInfo.fixed = (buildClusterState right).nodes.map NodeInfo.fixed := by
  simp only [buildClusterState,ClusterState.build,List.map_filterMap,scanRecords_congr same]
  congr 1
  funext record
  unfold nodeInfo
  cases parse record.nodeId with
  | error e => rfl
  | ok nodeId => rfl

@[simp] theorem buildClusterState_placements (storage : Disk) :
    (buildClusterState storage).placements = scanRecords Placement storage .placements := rfl

def commitScheduling (pod : PendingPod) (nodeId : SpiffeId) : List AuditedCommand :=
  [.system (.recordOrdinalAssignment ⟨pod.tenantId,pod.service,pod.role,pod.ordinal,some pod.podId,
      some (display nodeId)⟩),
    .system (.commitPlacement ⟨pod.podId,pod.tenantId,pod.service,pod.role,pod.ordinal,nodeId,pod.resources⟩)]

end

-- `Ord` of Rust's strings is the order of their bytes.
def textCmp (left right : String) : Ordering := compare (asBytes left) (asBytes right)

def preferNoSchedulePenalties (tolerations : List Toleration) (nodeTaints : List NodeTaint) : Nat :=
  (nodeTaints.filter fun taint => taint.effect = "PreferNoSchedule" && !isTolerated tolerations taint).length

inductive SchedulerError where
  | noSuitableNode (podId reason : String)
  | serialization (source : String)
  deriving DecidableEq

structure TopologyConfig where
  tenantSpreadWeight : ℚ
  podSpreadWeight : ℚ

def TopologyConfig.default : TopologyConfig := ⟨1,1 / 2⟩

structure ScoreBreakdown where
  binpackScore : ℚ
  topologyScore : ℚ
  antiAffinityPass : Bool
  resourceFit : Bool
  taintPenalty : ℚ

def preferNoSchedulePenalty : ℚ := 1 / 4

def ScoreBreakdown.total (breakdown : ScoreBreakdown) : ℚ :=
  (breakdown.topologyScore - breakdown.taintPenalty) * 1000 + breakdown.binpackScore

variable [FleetosCore] {pod : PendingPod} {state : ClusterState} {workloadPriority : Placement → Int32}
  {plan : PreemptionPlan} {node : NodeInfo}

namespace ClusterState

def placementsOnNode (state : ClusterState) (nodeId : SpiffeId) : List Placement :=
  state.placements.filter (·.nodeId = nodeId)

def placementsForTenant (state : ClusterState) (tenantId : String) : List Placement :=
  state.placements.filter (·.tenantId = tenantId)

end ClusterState

def scoreTopologySpread (pod : PendingPod) (node : NodeInfo) (state : ClusterState) (config : TopologyConfig) : ℚ :=
  let tenantPodsOnNode : ℚ := ((state.placementsOnNode node.nodeId).filter (·.tenantId = pod.tenantId)).length
  let idealPerNode : ℚ := (state.placementsForTenant pod.tenantId).length / (max state.nodes.length 1 : Nat)
  let tenantScore :=
    if tenantPodsOnNode ≤ idealPerNode then 1
    else max (1 - (tenantPodsOnNode - idealPerNode) / (idealPerNode + 1)) 0
  let maxPods : ℚ := ((state.nodes.map (·.podCount.toNat)).max?.getD 1 : Nat)
  let podScore := if 0 < maxPods then 1 - node.podCount.toNat / maxPods else 1
  let maxPossible := config.tenantSpreadWeight + config.podSpreadWeight
  if 0 < maxPossible then (tenantScore * config.tenantSpreadWeight + podScore * config.podSpreadWeight) / maxPossible
  else 0

-- `MostAllocated`, the only strategy the scheduler is built with
def scoreBinpack (request : ResourceSpec) (node : NodeInfo) : ℚ :=
  let utilization (capacity available wanted : UInt64) : ℚ :=
    let after := ResourceSpec.saturatingSub capacity (ResourceSpec.saturatingSub available wanted)
    if 0 < capacity then after.toNat / capacity.toNat else 0
  (utilization node.capacity.cpuMillicores node.available.cpuMillicores request.cpuMillicores +
    utilization node.capacity.memoryBytes node.available.memoryBytes request.memoryBytes) / 2

def scoreNode (pod : PendingPod) (state : ClusterState) (node : NodeInfo) : ScoreBreakdown where
  binpackScore := scoreBinpack pod.resources node
  topologyScore := scoreTopologySpread pod node state .default
  antiAffinityPass := true
  resourceFit := true
  taintPenalty := preferNoSchedulePenalties pod.tolerations node.taints * preferNoSchedulePenalty

def RanksBefore (left right : ScoreBreakdown × NodeInfo) : Prop :=
  right.1.total < left.1.total ∨ right.1.total = left.1.total ∧
    textCmp (display left.2.nodeId) (display right.2.nodeId) ≠ .gt

instance : DecidableRel RanksBefore := fun _ _ => inferInstanceAs (Decidable (_ ∨ _ ∧ _))

def scoreNodes (pod : PendingPod) (candidates : List NodeInfo) (state : ClusterState) : List (ScoreBreakdown × NodeInfo) :=
  (candidates.map fun node => (scoreNode pod state node,node)).insertionSort RanksBefore

structure ScheduleDecision where
  nodeId : SpiffeId
  podId : String
  scoreBreakdown : ScoreBreakdown

def schedule (pod : PendingPod) (state : ClusterState) : Except SchedulerError ScheduleDecision :=
  let candidates := filterNodes pod state
  if candidates.isEmpty then
    .error (.noSuitableNode pod.podId "no nodes passed all filters (capacity + anti-affinity)")
  else
    match (scoreNodes pod candidates state).head? with
    | none => .error (.noSuitableNode pod.podId "scoring produced no results")
    | some (breakdown,node) => .ok ⟨node.nodeId,pod.podId,breakdown⟩

theorem mem_scoreNodes {scored} :
    scored ∈ scoreNodes pod candidates state ↔ ∃ node ∈ candidates, (scoreNode pod state node,node) = scored := by
  rw [scoreNodes,List.mem_insertionSort,mem_map]

theorem schedule_ok (ok : schedule pod state = .ok decision) :
    ∃ node ∈ filterNodes pod state, node.nodeId = decision.nodeId := by
  unfold schedule at ok
  simp only at ok
  split at ok
  · cases ok
  · split at ok
    case h_1 => cases ok
    case h_2 breakdown node first =>
      cases ok
      obtain ⟨candidate,member,same⟩ := mem_scoreNodes.mp (List.mem_of_mem_head? first)
      cases same
      exact ⟨_,member,rfl⟩

theorem schedule_error : (∃ error, schedule pod state = .error error) ↔ filterNodes pod state = [] := by
  unfold schedule
  simp only
  split
  case isTrue none => simpa using none
  case isFalse some =>
    have candidates : filterNodes pod state ≠ [] := by simpa using some
    split
    case h_1 none =>
      obtain ⟨node,member⟩ := List.exists_mem_of_ne_nil _ candidates
      have scored : (scoreNode pod state node,node) ∈ scoreNodes pod (filterNodes pod state) state :=
        mem_scoreNodes.mpr ⟨node,member,rfl⟩
      rw [List.head?_eq_none_iff.mp none] at scored
      cases scored
    case h_2 => simpa using candidates

structure PreemptionPlan where
  nodeId : SpiffeId
  victims : List Placement
  deriving DecidableEq

def takeVictims (request : ResourceSpec) : ResourceSpec → List Placement → ResourceSpec × List Placement
  | available, [] => (available,[])
  | available, victim::rest =>
    if request.fitsWithin available then (available,[])
    else
      let (freed,victims) := takeVictims request (available.add victim.resources) rest
      (freed,victim::victims)

def YieldsBefore (workloadPriority : Placement → Int32) (left right : Placement) : Prop :=
  workloadPriority left < workloadPriority right ∨ workloadPriority left = workloadPriority right ∧
    textCmp left.podId right.podId ≠ .gt

instance (workloadPriority : Placement → Int32) : DecidableRel (YieldsBefore workloadPriority) :=
  fun _ _ => inferInstanceAs (Decidable (_ ∨ _ ∧ _))

def preemptionCandidates (pod : PendingPod) (state : ClusterState) (workloadPriority : Placement → Int32)
    (node : NodeInfo) : List Placement :=
  ((state.placementsOnNode node.nodeId).filter fun placement => workloadPriority placement < pod.priority).insertionSort
    (YieldsBefore workloadPriority)

def planOnNode (pod : PendingPod) (state : ClusterState) (workloadPriority : Placement → Int32) (node : NodeInfo) :
    Option PreemptionPlan :=
  if !passesTaintFilter pod.tolerations node.taints then none
  else
    let (available,victims) :=
      takeVictims pod.resources node.available (preemptionCandidates pod state workloadPriority node)
    if pod.resources.fitsWithin available then some ⟨node.nodeId,victims⟩ else none

def PreemptionPlan.better (workloadPriority : Placement → Int32) (plan best : PreemptionPlan) : Bool :=
  let sum (plan : PreemptionPlan) : Int := (plan.victims.map fun victim => (workloadPriority victim).toInt).sum
  (compare plan.victims.length best.victims.length).then ((compare (sum plan) (sum best)).then
    (textCmp (display plan.nodeId) (display best.nodeId))) = .lt

def betterPlan (workloadPriority : Placement → Int32) (best found : Option PreemptionPlan) : Option PreemptionPlan :=
  match found with
  | none => best
  | some plan =>
    match best with
    | none => some plan
    | some b => if plan.better workloadPriority b then some plan else some b

def findPreemptionPlan (pod : PendingPod) (state : ClusterState) (workloadPriority : Placement → Int32) :
    Option PreemptionPlan :=
  state.schedulableNodes.foldl
    (fun best node => betterPlan workloadPriority best (planOnNode pod state workloadPriority node)) none

theorem betterPlan_eq_some (kept : betterPlan workloadPriority best found = some plan) :
    best = some plan ∨ found = some plan := by
  unfold betterPlan at kept
  split at kept
  · exact .inl kept
  · split at kept
    · exact .inr kept
    · split at kept
      · exact .inr kept
      · exact .inl kept

theorem foldl_betterPlan (nodes : List NodeInfo) (best : Option PreemptionPlan) (found : nodes.foldl
      (fun best node => betterPlan workloadPriority best (planOnNode pod state workloadPriority node)) best = some plan) :
    best = some plan ∨ ∃ node ∈ nodes, planOnNode pod state workloadPriority node = some plan := by
  induction nodes generalizing best with
  | nil => exact .inl found
  | cons node nodes ih =>
    rcases ih _ found with kept | ⟨later,member,planned⟩
    · rcases betterPlan_eq_some kept with earlier | here
      · exact .inl earlier
      · exact .inr ⟨node,mem_cons_self,here⟩
    · exact .inr ⟨later,mem_cons_of_mem _ member,planned⟩

theorem findPreemptionPlan_some (found : findPreemptionPlan pod state workloadPriority = some plan) :
    ∃ node ∈ state.schedulableNodes, planOnNode pod state workloadPriority node = some plan := by
  rcases foldl_betterPlan _ _ found with impossible | planned
  · cases impossible
  · exact planned

theorem takeVictims_sublist (request available : ResourceSpec) (candidates : List Placement) :
    (takeVictims request available candidates).2.Sublist candidates := by
  induction candidates generalizing available with
  | nil => exact .slnil
  | cons victim rest ih =>
    unfold takeVictims
    split
    · exact List.nil_sublist _
    · exact (ih _).cons_cons _

theorem planOnNode_some (planned : planOnNode pod state workloadPriority node = some plan) :
    plan.nodeId = node.nodeId ∧ ∀ victim ∈ plan.victims,
      victim ∈ state.placements ∧ victim.nodeId = node.nodeId ∧ workloadPriority victim < pod.priority ∧
        pod.resources.fitsWithin node.available = false := by
  unfold planOnNode at planned
  split at planned
  · cases planned
  · simp only at planned
    split at planned
    · cases planned
      refine ⟨rfl,fun victim member => ?_⟩
      have candidate := (takeVictims_sublist _ _ _).subset member
      rw [preemptionCandidates,List.mem_insertionSort,mem_filter,ClusterState.placementsOnNode,
        mem_filter] at candidate
      obtain ⟨⟨placed,here⟩,lower⟩ := candidate
      refine ⟨placed,of_decide_eq_true here,of_decide_eq_true lower,?_⟩
      cases fits : pod.resources.fitsWithin node.available with
      | false => rfl
      | true =>
        cases candidates : preemptionCandidates pod state workloadPriority node with
        | nil => simp [candidates,takeVictims] at member
        | cons first rest => simp [candidates,takeVictims,fits] at member
    · cases planned

end FleetosControl
