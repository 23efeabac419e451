import FleetosControl.Disruption.Guard
import FleetosControl.Lib.Selection
import FleetosControl.Watch.StatusService

/-! The autoscalers. The horizontal one shares a total out among the roles, the vertical one sizes the
pod template; both write back the whole record that they have read. -/
namespace FleetosControl
open Selection Std

def minWindows : Nat := 3

def podAverageOf (windows : List PodMetrics) (metric : PodMetrics → UInt64) : UInt64 :=
  if windows.isEmpty then 0 else windows.foldl (fun sum window => sum + metric window) 0 / .ofNat windows.length

def podAverageCpu (windows : List PodMetrics) : UInt64 := podAverageOf windows (·.cpuMillicores.toUInt64)

def podAverageMemory (windows : List PodMetrics) : UInt64 := podAverageOf windows (·.memoryBytes)

def podAverageNetRx (windows : List PodMetrics) : UInt64 := podAverageOf windows (·.netRxBytes)

def podAverageNetTx (windows : List PodMetrics) : UInt64 := podAverageOf windows (·.netTxBytes)

def averageOver (qualifying : List (List PodMetrics)) (average : List PodMetrics → UInt64) : UInt64 :=
  qualifying.foldl (fun sum windows => sum + average windows) 0 / .ofNat qualifying.length

structure MetricSignal where
  avg : UInt64
  target : UInt64

-- `Ord::clamp`, whose callers see to it that the bounds are in order
def clamp32 (value least most : UInt32) : UInt32 := if value < least then least else if most < value then most else value

def computeDesiredForMetric (currentTotal : UInt32) (avg target : UInt64) (least most : UInt32) : Option UInt32 :=
  if currentTotal = 0 || target = 0 then none
  else
    let raw := (currentTotal.toNat * avg.toNat + target.toNat - 1) / target.toNat
    some (clamp32 (.ofNat (min raw (2^32 - 1))) least most)

def computeDesiredTotal (currentTotal : UInt32) (signals : List MetricSignal) (least most : UInt32) : Option UInt32 :=
  signals.foldl (fun best signal =>
    match computeDesiredForMetric currentTotal signal.avg signal.target least most with
    | some desired => some (best.elim desired (max · desired))
    | none => best) none

theorem clamp32_bounds {value least most : UInt32} (ordered : least ≤ most) :
    least ≤ clamp32 value least most ∧ clamp32 value least most ≤ most := by
  unfold clamp32
  split
  · exact ⟨UInt32.le_refl _,ordered⟩
  case isFalse above =>
    split
    · exact ⟨ordered,UInt32.le_refl _⟩
    case isFalse below => exact ⟨UInt32.not_lt.mp above,UInt32.not_lt.mp below⟩

def mostFirst (left right : UInt32) : Ordering := compare right left

instance : TransCmp mostFirst :=
  inferInstanceAs (TransCmp fun left right : UInt32 => compare right left)

theorem computeDesiredTotal_eq (currentTotal : UInt32) (signals : List MetricSignal) (least most : UInt32) :
    computeDesiredTotal currentTotal signals least most = signals.foldl (fun best signal =>
      keepBest mostFirst best (computeDesiredForMetric currentTotal signal.avg signal.target least most)) none := by
  unfold computeDesiredTotal
  congr
  funext best signal
  cases computeDesiredForMetric currentTotal signal.avg signal.target least most with
  | none => rfl
  | some desired =>
    cases best with
    | none => rfl
    | some kept =>
      change some (if kept ≤ desired then desired else kept) = if compare kept desired = .lt then some desired else some kept
      by_cases less : kept < desired
      · rw [if_pos (UInt32.le_of_lt less),if_pos (Std.compare_eq_lt.mpr less)]
      · rw [if_neg (mt Std.compare_eq_lt.mp less)]
        split
        case isTrue more => rw [UInt32.le_antisymm more (UInt32.not_lt.mp less)]
        case isFalse => rfl

section
variable {least most desired : UInt32}

theorem computeDesiredTotal_greatest {currentTotal : UInt32}
    (computed : computeDesiredTotal currentTotal signals least most = some desired) :
    Least mostFirst (signals.filterMap fun signal =>
      computeDesiredForMetric currentTotal signal.avg signal.target least most) desired := by
  rw [computeDesiredTotal_eq] at computed
  exact foldl_keepBest_least computed

theorem computeDesiredTotal_bounds {currentTotal : UInt32} (ordered : least ≤ most)
    (computed : computeDesiredTotal currentTotal signals least most = some desired) :
    least ≤ desired ∧ desired ≤ most := by
  obtain ⟨signal,_,single⟩ := mem_filterMap.mp (computeDesiredTotal_greatest computed).member
  unfold computeDesiredForMetric at single
  split at single
  · cases single
  · cases single
    exact clamp32_bounds ordered

def withinPercent (percent current desired : UInt32) : Bool :=
  current ≠ 0 &&
    (if current < desired then desired - current else current - desired).toNat * 100 ≤ current.toNat * percent.toNat

namespace HpaController

def deadbandPercent : UInt32 := 10

def withinDeadband (currentTotal desiredTotal : UInt32) : Bool := withinPercent deadbandPercent currentTotal desiredTotal

end HpaController

structure RoleShare where
  role : String
  base : Nat
  remainder : Nat

def RoleShare.order (left right : RoleShare) : Ordering :=
  (compare right.remainder left.remainder).then (compare left.role right.role)

section
variable (current : ExtTreeMap String UInt32 compare)

def replicaSum : Nat := (current.toList.map (·.2.toNat)).sum

def roleShares (desired : Nat) : List RoleShare :=
  current.toList.map fun entry =>
    ⟨entry.1,desired * entry.2.toNat / replicaSum current,desired * entry.2.toNat % replicaSum current⟩

def shortfall (desired : Nat) : Nat := desired - ((roleShares current desired).map (·.base)).sum

/-- The roles that get one more: as many as are short, by the largest remainder. -/
def favoured (desired : Nat) : List String :=
  (((roleShares current desired).insertionSort fun left right => (left.order right).isLE).take
    (shortfall current desired)).map (·.role)

def distributeReplicas (desiredTotal : UInt32) : ExtTreeMap String UInt32 compare :=
  if replicaSum current = 0 || desiredTotal = 0 then current.map fun _ _ => 0
  else current.map fun role count =>
    .ofNat (desiredTotal.toNat * count.toNat / replicaSum current +
      if role ∈ favoured current desiredTotal.toNat then 1 else 0)

end

section
variable {current : ExtTreeMap String UInt32 compare} {role : String} {count : UInt32} {desired : Nat}

theorem count_le_replicaSum (has : current[role]? = some count) : count.toNat ≤ replicaSum current := by
  have member := ExtTreeMap.mem_toList_iff_getElem?_eq_some.mpr has
  exact List.le_sum_of_mem (mem_map.mpr ⟨_,member,rfl⟩)

theorem favoured_short (has : current[role]? = some count) (chosen : role ∈ favoured current desired) :
    desired * count.toNat / replicaSum current + 1 ≤ desired := by
  have member := ExtTreeMap.mem_toList_iff_getElem?_eq_some.mpr has
  have short : 0 < shortfall current desired := by
    obtain ⟨share,taken,_⟩ := mem_map.mp chosen
    by_contra full
    rw [Nat.eq_zero_of_not_pos full,List.take_zero] at taken
    cases taken
  have base : desired * count.toNat / replicaSum current ≤ ((roleShares current desired).map (·.base)).sum := by
    apply List.le_sum_of_mem
    rw [roleShares,List.map_map]
    exact mem_map.mpr ⟨_,member,rfl⟩
  unfold shortfall at short
  omega

theorem rounded_le (has : current[role]? = some count) :
    desired * count.toNat / replicaSum current + (if role ∈ favoured current desired then 1 else 0) ≤ desired := by
  split
  case isTrue chosen => exact favoured_short has chosen
  case isFalse =>
    apply Nat.div_le_of_le_mul
    rw [Nat.mul_comm]
    exact Nat.mul_le_mul_right _ (count_le_replicaSum has)

theorem distributeReplicas_bounds {desiredTotal : UInt32} {given : UInt32}
    (has : (distributeReplicas current desiredTotal)[role]? = some given) :
    ∃ count, current[role]? = some count ∧ desiredTotal.toNat * count.toNat / replicaSum current ≤ given.toNat ∧
      given.toNat ≤ desiredTotal.toNat * count.toNat / replicaSum current + 1 ∧ given.toNat ≤ desiredTotal.toNat := by
  unfold distributeReplicas at has
  split at has
  case isTrue nothing =>
    rw [ExtTreeMap.getElem?_map] at has
    obtain ⟨count,own,rfl⟩ := map_eq_some_iff.mp has
    have share : desiredTotal.toNat * count.toNat / replicaSum current = 0 := by
      simp only [Bool.or_eq_true,decide_eq_true_eq] at nothing
      rcases nothing with empty | zero
      · rw [empty,Nat.div_zero]
      · simp [zero]
    refine ⟨count,own,?_,Nat.zero_le _,Nat.zero_le _⟩
    rw [share]
    exact Nat.zero_le _
  case isFalse =>
    rw [ExtTreeMap.getElem?_map] at has
    obtain ⟨count,own,rfl⟩ := map_eq_some_iff.mp has
    have total : desiredTotal.toNat * count.toNat / replicaSum current +
        (if role ∈ favoured current desiredTotal.toNat then 1 else 0) ≤ desiredTotal.toNat := rounded_le own
    have bound := desiredTotal.toNat_lt
    rw [UInt32.toNat_ofNat',Nat.mod_eq_of_lt (by omega)]
    refine ⟨count,own,Nat.le_add_right _ _,?_,total⟩
    split <;> omega

theorem distributeReplicas_size (desiredTotal : UInt32) : (distributeReplicas current desiredTotal).size = current.size := by
  unfold distributeReplicas
  split <;> exact ExtTreeMap.size_map

end

namespace WorkloadSpec

def currentTotal (spec : WorkloadSpec) : UInt32 := spec.replicas.toList.foldl (fun sum entry => sum + entry.2) 0

end WorkloadSpec

section
variable [FleetosCore]

def podsOf (placements : List Placement) (spec : WorkloadSpec) : List Placement :=
  placements.filter fun placement => placement.tenantId = spec.tenantId && placement.service = spec.workloadId

def qualifyingWindows (metrics : MetricsStore) (placements : List Placement) (spec : WorkloadSpec) :
    List (List PodMetrics) :=
  ((podsOf placements spec).filterMap fun pod => metrics.getWindows pod.podId).filter (minWindows ≤ ·.length)

def AutoscalingPolicy.signals (policy : AutoscalingPolicy) (qualifying : List (List PodMetrics)) : List MetricSignal :=
  [(policy.targetCpuMillicores.toUInt64,podAverageCpu),(policy.targetMemoryBytes,podAverageMemory),
    (policy.targetNetRxBytesPerSec,podAverageNetRx),(policy.targetNetTxBytesPerSec,podAverageNetTx)].filterMap
    fun metric => if metric.1 = 0 then none else some ⟨averageOver qualifying metric.2,metric.1⟩

def AutoscalingPolicy.noActiveTarget (policy : AutoscalingPolicy) : Bool :=
  policy.targetCpuMillicores = 0 && policy.targetMemoryBytes = 0 && policy.targetNetRxBytesPerSec = 0 &&
    policy.targetNetTxBytesPerSec = 0

structure HpaController where
  metrics : MetricsStore
  guard : DisruptionGuard
  scaleDownSince : String × String → Option Int64

namespace HpaController

def forget (controller : HpaController) (key : String × String) : HpaController :=
  { controller with scaleDownSince := Function.update controller.scaleDownSince key none }

def remember (controller : HpaController) (key : String × String) (since : Int64) : HpaController :=
  { controller with scaleDownSince := Function.update controller.scaleDownSince key (some since) }

def desiredTotal (controller : HpaController) (placements : List Placement) (spec : WorkloadSpec)
    (policy : AutoscalingPolicy) : Option UInt32 :=
  let least := max policy.minReplicas 1
  let qualifying := qualifyingWindows controller.metrics placements spec
  if !policy.enabled || policy.noActiveTarget || policy.maxReplicas = 0 then none
  else if policy.maxReplicas < least then none
  else if (podsOf placements spec).isEmpty || qualifying.isEmpty || spec.currentTotal = 0 then none
  else computeDesiredTotal spec.currentTotal (policy.signals qualifying) least policy.maxReplicas

def shrinkAllowed [NameTypes] (controller : HpaController) (spec : WorkloadSpec)
    (replicas : ExtTreeMap String UInt32 compare) : Bool :=
  replicas.toList.all fun entry =>
    let before := spec.desired entry.1
    before ≤ entry.2 ||
      controller.guard.allowed spec.tenantId spec.workloadId entry.1 (before - entry.2) .scaleDown

section
variable [WorkloadMessages]

def proposeScale (record : WorkloadSpecRecord) (spec : WorkloadSpec) (replicas : ExtTreeMap String UInt32 compare)
    (clock : UInt64) : AuditedCommand :=
  ⟨.scaleWorkload ⟨record.tenantId,record.workloadId,encodeWorkloadSpec { spec with replicas := replicas },[]⟩,
    some ⟨"","system:hpa-controller",record.tenantId ++ ":" ++ record.workloadId,clock⟩⟩

variable [NameTypes]

/-- The controller afterwards and what it proposed. `clock` is the time of the proposal. -/
def evaluateWorkload (controller : HpaController) (record : WorkloadSpecRecord) (placements : List Placement)
    (now : Int64) (clock : UInt64) : HpaController × Option AuditedCommand :=
  match decodeWorkloadSpec record.specBytes with
  | .error _ => (controller,none)
  | .ok spec =>
    match spec.autoscaling with
    | none => (controller,none)
    | some policy =>
      match controller.desiredTotal placements spec policy with
      | none => (controller,none)
      | some desired =>
        let key := (spec.tenantId,spec.workloadId)
        let replicas := distributeReplicas spec.replicas desired
        if withinDeadband spec.currentTotal desired then (controller.forget key,none)
        else if desired < spec.currentTotal then
          let since := (controller.scaleDownSince key).getD now
          if now - since < policy.stabilizationWindowSeconds.toUInt64.toInt64 then (controller.remember key since,none)
          else if !controller.shrinkAllowed spec replicas then (controller.remember key since,none)
          else (controller.forget key,some (proposeScale record spec replicas clock))
        else (controller.forget key,some (proposeScale record spec replicas clock))

end

variable {controller : HpaController} {placements : List Placement}

theorem desiredTotal_range {desired : UInt32}
    (computed : controller.desiredTotal placements spec policy = some desired) :
    spec.currentTotal ≠ 0 ∧ max policy.minReplicas 1 ≤ desired ∧ desired ≤ policy.maxReplicas := by
  unfold desiredTotal at computed
  simp only at computed
  split at computed
  · cases computed
  split at computed
  · cases computed
  case isFalse ordered =>
    split at computed
    · cases computed
    case isFalse placed =>
      simp only [Bool.or_eq_true,decide_eq_true_eq,not_or] at placed
      exact ⟨placed.2,computeDesiredTotal_bounds (UInt32.not_lt.mp ordered) computed⟩

variable [WorkloadMessages] [NameTypes]

theorem evaluateWorkload_proposes {now : Int64} {clock : UInt64}
    (proposed : (controller.evaluateWorkload record placements now clock).2 = some audited) :
    ∃ spec policy desired, decodeWorkloadSpec record.specBytes = .ok spec ∧
      spec.autoscaling = some policy ∧ controller.desiredTotal placements spec policy = some desired ∧
      (desired < spec.currentTotal →
        controller.shrinkAllowed spec (distributeReplicas spec.replicas desired) = true) ∧
      audited = proposeScale record spec (distributeReplicas spec.replicas desired) clock := by
  unfold evaluateWorkload at proposed
  split at proposed
  · cases proposed
  case h_2 spec decoded =>
    split at proposed
    · cases proposed
    case h_2 policy declared =>
      split at proposed
      · cases proposed
      case h_2 desired computed =>
        refine ⟨spec,policy,desired,decoded,declared,computed,?_⟩
        simp only at proposed
        split at proposed
        · cases proposed
        split at proposed
        case isTrue shrinks =>
          split at proposed
          · cases proposed
          split at proposed
          · cases proposed
          case isFalse allowed =>
            cases proposed
            exact ⟨fun _ => by simpa using allowed,rfl⟩
        case isFalse grows =>
          cases proposed
          exact ⟨fun shrinks => absurd shrinks grows,rfl⟩

end HpaController

end

end

structure Footprint where
  vcpus : UInt32
  memoryMb : UInt32
  deriving DecidableEq

def roundUp (value step : UInt64) : UInt32 := ((value + (step - 1)) / step).toUInt32

def mebibyte : UInt64 := 1024 * 1024

-- `Ord::clamp` panics when the bounds are out of order, which ends the pass
def clampChecked (value least most : UInt32) : Option UInt32 :=
  if least ≤ most then some (clamp32 value least most) else none

/-- One dimension: what is used should be the given percentage of the recommendation, in whole steps. -/
def recommend (average : UInt64) (targetPercent : UInt32) (step : UInt64) (least most : UInt32) : Option UInt32 :=
  clampChecked (roundUp (average * 100 / targetPercent.toUInt64) step) (max least 1) (max most 1)

def resizeDimension (active : Bool) (deadband current : UInt32) (recommended : Option UInt32) : Option (UInt32 × Bool) :=
  if active then recommended.map fun clamped =>
    if withinPercent deadband current clamped then (current,false) else (clamped,true)
  else some (current,false)

namespace VerticalAutoscalingPolicy

def defaultDeadbandPercent : UInt32 := 10

def deadband (policy : VerticalAutoscalingPolicy) : UInt32 :=
  if policy.deadbandPercent = 0 then defaultDeadbandPercent else policy.deadbandPercent

def modeText (policy : VerticalAutoscalingPolicy) : String := if policy.mode = 1 then "RECREATE" else "OFF"

def footprint (policy : VerticalAutoscalingPolicy) (qualifying : List (List PodMetrics)) (current : Footprint)
    (cpuActive memActive : Bool) : Option (Footprint × Bool) := do
  let (vcpus,cpuChange) ← resizeDimension cpuActive policy.deadband current.vcpus
    (recommend (averageOver qualifying podAverageCpu) policy.targetCpuUtilizationPercent 1000 policy.minVcpus
      policy.maxVcpus)
  let (memoryMb,memChange) ← resizeDimension memActive policy.deadband current.memoryMb
    (recommend (averageOver qualifying podAverageMemory) policy.targetMemoryUtilizationPercent mebibyte
      (roundUp policy.minMemoryBytes mebibyte) (roundUp policy.maxMemoryBytes mebibyte))
  pure (⟨vcpus,memoryMb⟩,cpuChange || memChange)

end VerticalAutoscalingPolicy

namespace WorkloadSpec

def footprint (spec : WorkloadSpec) : Option Footprint :=
  (spec.podSpec.bind (·.resources)).map fun resources => ⟨resources.vcpus,resources.memoryMb⟩

def resized (spec : WorkloadSpec) (next : Footprint) : WorkloadSpec :=
  { spec with podSpec := spec.podSpec.map fun pod => { pod with
      resources := pod.resources.map fun resources => { resources with
        vcpus := next.vcpus
        memoryMb := next.memoryMb } } }

/-- A CPU target of the horizontal autoscaler takes out the CPU and is looked at first. -/
def dimensions (spec : WorkloadSpec) (policy : VerticalAutoscalingPolicy) : Bool × Bool :=
  let cpuActive : Bool := 0 < policy.targetCpuUtilizationPercent
  let memActive : Bool := 0 < policy.targetMemoryUtilizationPercent
  match spec.autoscaling.filter (·.enabled) with
  | none => (cpuActive,memActive)
  | some hpa =>
    if cpuActive && 0 < hpa.targetCpuMillicores then (false,memActive)
    else if memActive && 0 < hpa.targetMemoryBytes then (cpuActive,false)
    else (cpuActive,memActive)

end WorkloadSpec

variable [FleetosCore] [Formats]

def getVpaRecommendation (storage : Disk) (tenantId workloadId : String) : Except String (Option VpaRecommendationRecord) :=
  match (storage .vpaRecommendations)[workloadKey tenantId workloadId]? with
  | some bytes => (fromBytes bytes).map some
  | none => .ok none

structure VpaController where
  storage : Disk
  metrics : MetricsStore
  guard : DisruptionGuard
  shrinkSince : String × String → Option Int64

namespace VpaController

def forget (controller : VpaController) (key : String × String) : VpaController :=
  { controller with shrinkSince := Function.update controller.shrinkSince key none }

def remember (controller : VpaController) (key : String × String) (since : Int64) : VpaController :=
  { controller with shrinkSince := Function.update controller.shrinkSince key (some since) }

def checkQuotaForGrow (controller : VpaController) (spec : WorkloadSpec) (next : Footprint) : Except String Unit := do
  match ← getTenantQuota controller.storage spec.tenantId with
  | none => pure ()
  | some quota =>
    let (currentCpu,currentMemory,_) := computeTenantUsage controller.storage spec.tenantId
    let total := spec.totalReplicas
    let newTotalCpu := currentCpu - spec.cpuPerPod * total + next.vcpus.toUInt64 * 1000 * total
    let newTotalMemory := currentMemory - spec.memPerPod * total + next.memoryMb.toUInt64 * 1024 * 1024 * total
    if quota.maxCpuMillicores < newTotalCpu then
      .error ("tenant '" ++ spec.tenantId ++ "' CPU quota exceeded: " ++ toString newTotalCpu ++ " > " ++
        toString quota.maxCpuMillicores)
    else if quota.maxMemoryBytes < newTotalMemory then
      .error ("tenant '" ++ spec.tenantId ++ "' memory quota exceeded: " ++ toString newTotalMemory ++ " > " ++
        toString quota.maxMemoryBytes)
    else pure ()

def findStalePods (spec : WorkloadSpec) (placements : List Placement) (next : Footprint) : List Placement :=
  (podsOf placements spec).filter fun pod => pod.resources.cpuMillicores ≠ next.vcpus.toUInt64 * 1000 ||
    pod.resources.memoryBytes ≠ next.memoryMb.toUInt64 * 1024 * 1024

def removeStalePod (pod : Placement) : List AuditedCommand :=
  [.system (.recordOrdinalAssignment (freedOrdinal pod)),.system (.removePlacement pod.podId)]

def adviceContext (tenantId workloadId : String) (now : Int64) : Option AuditContext :=
  some ⟨"","system:vpa-controller",tenantId ++ ":" ++ workloadId,now.toUInt64⟩

/-- The recommendation, unless one for the same size is stored. -/
def advise (spec : WorkloadSpec) (policy : VerticalAutoscalingPolicy) (current next : Footprint) (now : Int64)
    (existing : Option VpaRecommendationRecord) : List AuditedCommand :=
  if existing.any fun record => record.recommendedVcpus = next.vcpus && record.recommendedMemoryMb = next.memoryMb then []
  else [⟨.upsertVpaRecommendation ⟨spec.tenantId,spec.workloadId,next.vcpus,next.memoryMb,current.vcpus,current.memoryMb,now,
      policy.modeText⟩,adviceContext spec.tenantId spec.workloadId now⟩]

variable [WorkloadMessages] {controller : VpaController} {record : WorkloadSpecRecord} {placements : List Placement}
  {now : Int64} {audited : AuditedCommand} {spec : WorkloadSpec} {policy : VerticalAutoscalingPolicy}
  {current next : Footprint} {changed : Bool}

def proposeResize (record : WorkloadSpecRecord) (spec : WorkloadSpec) (next : Footprint) (now : Int64) : AuditedCommand :=
  ⟨.resizeWorkload ⟨record.tenantId,record.workloadId,encodeWorkloadSpec (spec.resized next),[]⟩,
    adviceContext record.tenantId record.workloadId now⟩

variable [NameTypes]

/-- Shrinking waits, growing is held against the quota, and the first stale pod has to be allowed to go. -/
def recreate (controller : VpaController) (record : WorkloadSpecRecord) (spec : WorkloadSpec)
    (policy : VerticalAutoscalingPolicy) (placements : List Placement) (now : Int64) (current next : Footprint) :
    VpaController × List AuditedCommand :=
  let key := (spec.tenantId,spec.workloadId)
  let shrinks := next.vcpus < current.vcpus || next.memoryMb < current.memoryMb
  let grows := current.vcpus < next.vcpus || current.memoryMb < next.memoryMb
  let since := (controller.shrinkSince key).getD now
  let marked := if shrinks then controller.remember key since else controller.forget key
  if shrinks && now - since < policy.stabilizationWindowSeconds.toUInt64.toInt64 then (marked,[])
  else if grows && !(controller.checkQuotaForGrow spec next).isOk then (marked,[])
  else
    match findStalePods spec placements next with
    | [] => (marked,[])
    | first::_ =>
      if !controller.guard.allowed spec.tenantId spec.workloadId first.role 1 .verticalResize then (marked,[])
      else (marked,proposeResize record spec next now :: removeStalePod first)

def evaluateWithDimensions (controller : VpaController) (record : WorkloadSpecRecord) (spec : WorkloadSpec)
    (policy : VerticalAutoscalingPolicy) (placements : List Placement) (now : Int64) (cpuActive memActive : Bool) :
    VpaController × List AuditedCommand :=
  let qualifying := qualifyingWindows controller.metrics placements spec
  match spec.footprint with
  | none => (controller,[])
  | some current =>
    if (!cpuActive && !memActive) || (podsOf placements spec).isEmpty || qualifying.isEmpty then (controller,[])
    else
      match policy.footprint qualifying current cpuActive memActive with
      | none => (controller,[])
      | some (_,false) => (controller.forget (spec.tenantId,spec.workloadId),[])
      | some (next,true) =>
        match getVpaRecommendation controller.storage spec.tenantId spec.workloadId with
        | .error _ => (controller,[])
        | .ok existing =>
          let advice := advise spec policy current next now existing
          if policy.mode = 0 then (controller,advice)
          else
            let (marked,proposals) := controller.recreate record spec policy placements now current next
            (marked,advice ++ proposals)

def evaluateWorkload (controller : VpaController) (record : WorkloadSpecRecord) (placements : List Placement)
    (now : Int64) : VpaController × List AuditedCommand :=
  match decodeWorkloadSpec record.specBytes with
  | .error _ => (controller,[])
  | .ok spec =>
    match spec.verticalAutoscaling with
    | none => (controller,[])
    | some policy =>
      if !policy.enabled then (controller,[])
      else
        let (cpuActive,memActive) := spec.dimensions policy
        controller.evaluateWithDimensions record spec policy placements now cpuActive memActive

inductive Proposal (controller : VpaController) (record : WorkloadSpecRecord) (spec : WorkloadSpec)
    (placements : List Placement) : FleetosCommand → Prop where
  | advice (advice : VpaRecommendationRecord) : Proposal controller record spec placements (.upsertVpaRecommendation advice)
  | resize (next : Footprint) : Proposal controller record spec placements
      (.resizeWorkload ⟨record.tenantId,record.workloadId,encodeWorkloadSpec (spec.resized next),[]⟩)
  | freed {pod : Placement} : pod ∈ podsOf placements spec →
      Proposal controller record spec placements (.recordOrdinalAssignment (freedOrdinal pod))
  | removed {pod : Placement} : pod ∈ podsOf placements spec →
      controller.guard.allowed spec.tenantId spec.workloadId pod.role 1 .verticalResize = true →
      Proposal controller record spec placements (.removePlacement pod.podId)

theorem recreate_acts (controller : VpaController) (record : WorkloadSpecRecord) (spec : WorkloadSpec)
    (policy : VerticalAutoscalingPolicy) (placements : List Placement) (now : Int64) (current next : Footprint) :
    (controller.recreate record spec policy placements now current next).2 = [] ∨ ∃ first rest,
      findStalePods spec placements next = first::rest ∧
      controller.guard.allowed spec.tenantId spec.workloadId first.role 1 .verticalResize = true ∧
      ((next.vcpus < current.vcpus || next.memoryMb < current.memoryMb) = true →
        ¬now - (controller.shrinkSince (spec.tenantId,spec.workloadId)).getD now <
          policy.stabilizationWindowSeconds.toUInt64.toInt64) ∧
      (controller.recreate record spec policy placements now current next).2 =
        proposeResize record spec next now :: removeStalePod first := by
  unfold recreate
  simp only
  split
  · exact .inl rfl
  case isFalse due =>
    split
    · exact .inl rfl
    split
    · exact .inl rfl
    case h_2 first rest stale =>
      split
      · exact .inl rfl
      case isFalse allowed =>
        refine .inr ⟨first,rest,stale,by simpa using allowed,fun shrinks early => due ?_,rfl⟩
        rw [shrinks,Bool.true_and]
        exact decide_eq_true early

theorem recreate_proposes (proposed : audited ∈ (controller.recreate record spec policy placements now current next).2) :
    controller.Proposal record spec placements audited.cmd := by
  rcases recreate_acts controller record spec policy placements now current next with
    nothing | ⟨first,rest,stale,allowed,_,acts⟩
  · rw [nothing] at proposed
    cases proposed
  · have placed : first ∈ podsOf placements spec := by
      have member : first ∈ findStalePods spec placements next := by rw [stale]; exact mem_cons_self
      exact List.mem_of_mem_filter member
    rw [acts] at proposed
    simp only [removeStalePod,mem_cons,not_mem_nil,or_false] at proposed
    rcases proposed with rfl | rfl | rfl
    · exact .resize next
    · exact .freed placed
    · exact .removed placed allowed

structure Decides (controller : VpaController) (record : WorkloadSpecRecord) (placements : List Placement)
    (spec : WorkloadSpec) (policy : VerticalAutoscalingPolicy) (current next : Footprint) (changed : Bool) : Prop where
  decoded : decodeWorkloadSpec record.specBytes = .ok spec
  declared : spec.verticalAutoscaling = some policy
  enabled : policy.enabled = true
  sized : spec.footprint = some current
  active : spec.dimensions policy ≠ (false,false)
  qualified : qualifyingWindows controller.metrics placements spec ≠ []
  made : policy.footprint (qualifyingWindows controller.metrics placements spec) current (spec.dimensions policy).1
    (spec.dimensions policy).2 = some (next,changed)

theorem Decides.evaluates (decides : controller.Decides record placements spec policy current next changed) (now : Int64) :
    controller.evaluateWorkload record placements now = if changed then
        match getVpaRecommendation controller.storage spec.tenantId spec.workloadId with
        | .error _ => (controller,[])
        | .ok existing =>
          if policy.mode = 0 then (controller,advise spec policy current next now existing)
          else ((controller.recreate record spec policy placements now current next).1,
            advise spec policy current next now existing ++
              (controller.recreate record spec policy placements now current next).2)
      else (controller.forget (spec.tenantId,spec.workloadId),[]) := by
  obtain ⟨decoded,declared,enabled,sized,active,qualified,made⟩ := decides
  have placed : podsOf placements spec ≠ [] := fun nobody => qualified (by rw [qualifyingWindows,nobody]; rfl)
  have proceeds : ((!(spec.dimensions policy).1 && !(spec.dimensions policy).2) || (podsOf placements spec).isEmpty ||
      (qualifyingWindows controller.metrics placements spec).isEmpty) = false := by
    revert active
    rcases spec.dimensions policy with ⟨_ | _,_ | _⟩ <;> simp [placed,qualified]
  simp only [evaluateWorkload,decoded,declared,enabled,Bool.not_true,Bool.false_eq_true,if_false,evaluateWithDimensions,sized,
    proceeds,made]
  cases changed <;> rfl

theorem evaluateWorkload_decides (controller : VpaController) (record : WorkloadSpecRecord) (placements : List Placement)
    (now : Int64) : controller.evaluateWorkload record placements now = (controller,[]) ∨
      ∃ spec policy current next changed, controller.Decides record placements spec policy current next changed := by
  unfold evaluateWorkload
  split
  · exact .inl rfl
  case h_2 spec decoded =>
    split
    · exact .inl rfl
    case h_2 policy declared =>
      split
      · exact .inl rfl
      case isFalse enabled =>
        simp only [evaluateWithDimensions]
        split
        · exact .inl rfl
        case h_2 current sized =>
          split
          · exact .inl rfl
          case isFalse proceeds =>
            cases made : policy.footprint (qualifyingWindows controller.metrics placements spec) current
                (spec.dimensions policy).1 (spec.dimensions policy).2 with
            | none => exact .inl rfl
            | some result =>
              refine .inr ⟨spec,policy,current,result.1,result.2,decoded,declared,by simpa using enabled,sized,?_,?_,made⟩
              · intro none
                simp [none] at proceeds
              · intro none
                simp [none] at proceeds

theorem Decides.proposed (decides : controller.Decides record placements spec policy current next true)
    (proposed : audited ∈ (controller.evaluateWorkload record placements now).2) :
    (∃ existing, audited ∈ advise spec policy current next now existing) ∨
      policy.mode ≠ 0 ∧ audited ∈ (controller.recreate record spec policy placements now current next).2 := by
  rw [decides.evaluates,if_pos rfl] at proposed
  split at proposed
  · cases proposed
  case h_2 existing _ =>
    split at proposed
    case isTrue => exact .inl ⟨existing,proposed⟩
    case isFalse mode => exact (mem_append.mp proposed).imp (fun advice => ⟨existing,advice⟩) fun change => ⟨mode,change⟩

theorem evaluateWorkload_proposed (proposed : audited ∈ (controller.evaluateWorkload record placements now).2) :
    ∃ spec policy current next, controller.Decides record placements spec policy current next true ∧
      ((∃ existing, audited ∈ advise spec policy current next now existing) ∨
        policy.mode ≠ 0 ∧ audited ∈ (controller.recreate record spec policy placements now current next).2) := by
  rcases evaluateWorkload_decides controller record placements now with
    nothing | ⟨spec,policy,current,next,changed,decides⟩
  · rw [nothing] at proposed
    cases proposed
  · cases changed with
    | false =>
      rw [decides.evaluates] at proposed
      cases proposed
    | true => exact ⟨spec,policy,current,next,decides,decides.proposed proposed⟩

omit [Formats] [WorkloadMessages] [NameTypes] in
theorem advise_upserts (advised : audited ∈ advise spec policy current next now existing) :
    audited.cmd = .upsertVpaRecommendation ⟨spec.tenantId,spec.workloadId,next.vcpus,next.memoryMb,current.vcpus,
      current.memoryMb,now,policy.modeText⟩ := by
  unfold advise at advised
  split at advised
  · cases advised
  · rw [mem_singleton.mp advised]

theorem evaluateWorkload_proposes (proposed : audited ∈ (controller.evaluateWorkload record placements now).2) :
    ∃ spec, decodeWorkloadSpec record.specBytes = .ok spec ∧
      controller.Proposal record spec placements audited.cmd := by
  obtain ⟨spec,policy,current,next,decides,⟨existing,advised⟩ | ⟨_,change⟩⟩ := evaluateWorkload_proposed proposed
  · rw [advise_upserts advised]
    exact ⟨spec,decides.decoded,.advice _⟩
  · exact ⟨spec,decides.decoded,recreate_proposes change⟩

end VpaController

end FleetosControl
