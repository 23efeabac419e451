import Mathlib.Data.List.Destutter
import Mathlib.Data.String.Basic
import FleetosControl.Controllers.ScaleRange

/-! Pods that go. A grace counts from the moment at which a taint was added, even for a pod that was
placed after that; a pod is dead without a placement, or by the age of its last report. -/
namespace FleetosControl

section
variable [FleetosCore]

def noExecute (taints : List NodeTaint) : List NodeTaint := taints.filter (·.effect = "NoExecute")

/-- A taint drives a pod out. A grace of zero stands for an unlimited one. -/
def drivesOut (nowUnix : Int64) (tolerations : List Toleration) (taint : NodeTaint) : Bool :=
  let matching := tolerations.filter (tolerates · taint)
  if matching.isEmpty then true
  else if matching.any (·.tolerationSeconds ≤ 0) then false
  else matching.foldl (fun grace toleration => max grace toleration.tolerationSeconds) 0 < nowUnix - taint.timeAddedUnix

def planNoExecuteEvictions (nowUnix : Int64) (nodeTaints : List NodeTaint) (nodePlacements : List Placement)
    (tolerationsFor : Placement → List Toleration) : List String :=
  let evict := (nodePlacements.filter fun placement =>
    (noExecute nodeTaints).any (drivesOut nowUnix (tolerationsFor placement))).map (·.podId)
  (evict.insertionSort fun left right => (compare left right).isLE).destutter (· ≠ ·)

namespace NodeController
variable [Formats] {storage : Disk} {now : Int64} {audited : AuditedCommand}

def lookupTolerations (storage : Disk) (tenantId service : String) : List Toleration :=
  ((lookupWorkloadSpec storage tenantId service).bind (·.podSpec)).elim [] (·.tolerations)

def evictTainted (storage : Disk) (now : Int64) (nodeId : String) (nodeTaints : List NodeTaint) : List AuditedCommand :=
  match parse nodeId with
  | .error _ => []
  | .ok node =>
    let placements := (scanRecords Placement storage .placements).filter (·.nodeId = node)
    let evictions := planNoExecuteEvictions now nodeTaints placements fun placement =>
      lookupTolerations storage placement.tenantId placement.service
    evictions.flatMap fun podId =>
      match placements.find? (·.podId = podId) with
      | none => []
      | some placement =>
        [.system (.removePlacement podId),.system (.recordOrdinalAssignment (freedOrdinal placement))]

-- node ids are texts, and what is stored under another key has no identity
def enforceNoExecuteTaints (storage : Disk) (now : Int64) : List AuditedCommand :=
  (storage .nodeTaints).toList.flatMap fun entry =>
    match fromUtf8 entry.1,fromBytes (α := List NodeTaint) entry.2 with
    | some nodeId,.ok nodeTaints => evictTainted storage now nodeId nodeTaints
    | _,_ => []

theorem evictTainted_proposes (proposed : audited ∈ evictTainted storage now nodeId nodeTaints) :
    (∃ podId, audited.cmd = .removePlacement podId) ∨ ∃ freed, audited.cmd = .recordOrdinalAssignment freed := by
  unfold evictTainted at proposed
  split at proposed
  · cases proposed
  · obtain ⟨podId,_,inside⟩ := mem_flatMap.mp proposed
    split at inside
    · cases inside
    · simp only [mem_cons,not_mem_nil,or_false] at inside
      rcases inside with rfl | rfl
      · exact .inl ⟨_,rfl⟩
      · exact .inr ⟨_,rfl⟩

theorem enforceNoExecuteTaints_proposes (proposed : audited ∈ enforceNoExecuteTaints storage now) :
    (∃ podId, audited.cmd = .removePlacement podId) ∨ ∃ freed, audited.cmd = .recordOrdinalAssignment freed := by
  obtain ⟨entry,_,inside⟩ := mem_flatMap.mp proposed
  split at inside
  · exact evictTainted_proposes inside
  · cases inside

end NodeController

end

open KeyValue

def readinessGateGraceSecs : Int64 := 30

def readinessGateViolationSustained (record : WorkloadStatusRecord) (graceSecs nowUnix : Int64) : Bool :=
  0 < record.gateViolationSinceUnix && graceSecs < nowUnix - record.gateViolationSinceUnix

section
variable [FleetosCore] [Formats]

def getWorkloadStatus (storage : Disk) (podId : String) : Except String (Option WorkloadStatusRecord) :=
  match (storage .workloadStatus)[asBytes podId]? with
  | some bytes => (fromBytes bytes).map some
  | none => .ok none

def isDead (storage : Disk) (stalenessSecs now : Int64) (slot : Slot) : Bool :=
  match (scanRecords Placement storage .placements).find? fun placement => placement.slot = slot with
  | none => true
  | some placement =>
    match getWorkloadStatus storage placement.podId with
    | .ok (some status) =>
      !status.live || stalenessSecs < now - status.observedAtUnix ||
        readinessGateViolationSustained status readinessGateGraceSecs now
    | _ => false

def deadPods (storage : Disk) (stalenessSecs now : Int64) : List Slot :=
  (decodedWorkloads storage).flatMap fun spec => spec.slots.filter (isDead storage stalenessSecs now)

theorem upsertWorkloadStatus_kept (storage : Disk) (record : WorkloadStatusRecord) :
    ∃ kept : WorkloadStatusRecord, kept.live = record.live ∧
      upsertWorkloadStatus storage record = [put .workloadStatus (asBytes record.podId) kept] := by
  refine ⟨{ record with gateViolationSinceUnix := ?_ },rfl,?_⟩
  rotate_left
  · rfl

theorem isDead_reported {storage after slot placement} {record : WorkloadStatusRecord}
    (placed : (scanRecords Placement storage .placements).find? (fun placement => placement.slot = slot) = some placement)
    (own : record.podId = placement.podId) (down : record.live = false)
    (unmoved : after .placements = storage .placements)
    (reported : after .workloadStatus = commit storage (upsertWorkloadStatus storage record) .workloadStatus)
    (stalenessSecs now : Int64) : isDead after stalenessSecs now slot = true := by
  obtain ⟨kept,same,writes⟩ := upsertWorkloadStatus_kept storage record
  have read : getWorkloadStatus after placement.podId = .ok (some kept) := by
    rw [getWorkloadStatus,reported,writes,own]
    simp [put,perform,Write.on,Except.map,fromBytes_toAllocvec]
  unfold isDead
  rw [scanRecords_congr unmoved,placed]
  simp only [read,same,down,Bool.not_false,Bool.true_or]

end

def NodeTaint.age (taint : NodeTaint) (nowUnix : Int64) : Int := nowUnix.toInt - taint.timeAddedUnix.toInt

def AgesFit (nowUnix : Int64) (nodeTaints : List NodeTaint) : Prop :=
  ∀ taint ∈ noExecute nodeTaints, -2^63 ≤ taint.age nowUnix ∧ taint.age nowUnix < 2^63

/-- No toleration matches the taint, or only such with a positive grace below this time. -/
def Lapsed (time : Int) (tolerations : List Toleration) (taint : NodeTaint) : Prop :=
  ∀ toleration ∈ tolerations, tolerates toleration taint = true →
    0 < toleration.tolerationSeconds.toInt ∧ toleration.tolerationSeconds.toInt < time

def DrivenOut (nowUnix : Int64) (nodeTaints : List NodeTaint) (tolerations : List Toleration) : Prop :=
  ∃ taint ∈ noExecute nodeTaints, Lapsed (taint.age nowUnix) tolerations taint

def grace (tolerations : List Toleration) (taint : NodeTaint) : Int64 :=
  (tolerations.filter (tolerates · taint)).foldl (fun most toleration => max most toleration.tolerationSeconds) 0

def Limited (tolerations : List Toleration) (taint : NodeTaint) : Prop :=
  ∀ toleration ∈ tolerations, tolerates toleration taint = true → 0 < toleration.tolerationSeconds.toInt

section
variable {tolerations : List Toleration} {taint : NodeTaint} {time later : Int}

theorem Lapsed.mono (lapsed : Lapsed time tolerations taint) (grows : time ≤ later) : Lapsed later tolerations taint :=
  fun toleration member matched =>
    ⟨(lapsed toleration member matched).1,(lapsed toleration member matched).2.trans_le grows⟩

theorem foldl_max_lt (items : List Toleration) (start : Int64) :
    (items.foldl (fun most toleration => max most toleration.tolerationSeconds) start).toInt < time ↔
      start.toInt < time ∧ ∀ toleration ∈ items, toleration.tolerationSeconds.toInt < time := by
  induction items generalizing start with
  | nil => simp
  | cons toleration rest ih =>
    have both : (max start toleration.tolerationSeconds).toInt < time ↔
        start.toInt < time ∧ toleration.tolerationSeconds.toInt < time := by
      change Int64.toInt (if start ≤ toleration.tolerationSeconds then toleration.tolerationSeconds else start) < time ↔ _
      simp only [Int64.le_iff_toInt_le]
      split <;> omega
    rw [List.foldl_cons,ih,both,forall_mem_cons,and_assoc]

theorem grace_nonneg (tolerations : List Toleration) (taint : NodeTaint) : 0 ≤ (grace tolerations taint).toInt := by
  by_contra negative
  exact lt_irrefl _ ((foldl_max_lt _ _).mp (Int.not_le.mp negative)).1

theorem lapsed_iff (tolerated : isTolerated tolerations taint = true) :
    Lapsed time tolerations taint ↔ Limited tolerations taint ∧ (grace tolerations taint).toInt < time := by
  obtain ⟨first,member,matched⟩ := List.any_eq_true.mp tolerated
  unfold grace
  rw [foldl_max_lt]
  constructor
  · intro lapsed
    have positive := lapsed first member matched
    refine ⟨fun toleration member matched => (lapsed toleration member matched).1,positive.1.trans positive.2,?_⟩
    intro toleration inside
    obtain ⟨member,matched⟩ := mem_filter.mp inside
    exact (lapsed toleration member matched).2
  · rintro ⟨limited,_,below⟩ toleration member matched
    exact ⟨limited toleration member matched,below toleration (mem_filter.mpr ⟨member,matched⟩)⟩

theorem drivesOut_iff {nowUnix : Int64} (fits : -2^63 ≤ taint.age nowUnix ∧ taint.age nowUnix < 2^63) :
    drivesOut nowUnix tolerations taint = true ↔ Lapsed (taint.age nowUnix) tolerations taint := by
  unfold NodeTaint.age at fits
  have elapsed : (nowUnix - taint.timeAddedUnix).toInt = taint.age nowUnix := by
    rw [Int64.toInt_sub]
    exact Int.bmod_eq_of_le (by omega) (by omega)
  unfold drivesOut
  by_cases tolerated : isTolerated tolerations taint = true
  · rw [lapsed_iff tolerated]
    have some : (tolerations.filter (tolerates · taint)).isEmpty = false := by
      obtain ⟨first,member,matched⟩ := List.any_eq_true.mp tolerated
      exact List.isEmpty_eq_false_iff_exists_mem.mpr ⟨first,mem_filter.mpr ⟨member,matched⟩⟩
    simp only [some,Bool.false_eq_true,if_false]
    split
    case isTrue unlimited =>
      obtain ⟨toleration,inside,none⟩ := List.any_eq_true.mp unlimited
      obtain ⟨member,matched⟩ := mem_filter.mp inside
      rw [decide_eq_true_eq,Int64.le_iff_toInt_le] at none
      refine ⟨nofun,fun ⟨limited,_⟩ => absurd (limited toleration member matched) (Int.not_lt.mpr none)⟩
    case isFalse limited =>
      rw [decide_eq_true_eq,Int64.lt_iff_toInt_lt,elapsed]
      refine ⟨fun below => ⟨?_,below⟩,And.right⟩
      intro toleration member matched
      by_contra none
      refine limited (List.any_eq_true.mpr ⟨toleration,mem_filter.mpr ⟨member,matched⟩,?_⟩)
      rw [decide_eq_true_eq,Int64.le_iff_toInt_le]
      exact Int.not_lt.mp none
  · have none : ∀ toleration ∈ tolerations, tolerates toleration taint ≠ true := by
      simpa [isTolerated] using tolerated
    rw [if_pos (by simpa using none)]
    exact ⟨fun _ toleration member matched => absurd matched (none toleration member),fun _ => rfl⟩

end

theorem DrivenOut.mono {nowUnix later : Int64} (driven : DrivenOut nowUnix nodeTaints tolerations)
    (passes : nowUnix ≤ later) :
    DrivenOut later nodeTaints tolerations := by
  obtain ⟨taint,member,lapsed⟩ := driven
  have grows := Int64.le_iff_toInt_le.mp passes
  exact ⟨taint,member,lapsed.mono (by unfold NodeTaint.age; omega)⟩

section
variable [FleetosCore] {nowUnix : Int64} {nodeTaints : List NodeTaint} {nodePlacements : List Placement}
  {tolerationsFor : Placement → List Toleration}

theorem planNoExecuteEvictions_sorted (distinct : (nodePlacements.map (·.podId)).Nodup) :
    (planNoExecuteEvictions nowUnix nodeTaints nodePlacements tolerationsFor).Pairwise (· < ·) ∧
      (planNoExecuteEvictions nowUnix nodeTaints nodePlacements tolerationsFor).Perm ((nodePlacements.filter
        fun placement => (noExecute nodeTaints).any (drivesOut nowUnix (tolerationsFor placement))).map (·.podId)) := by
  unfold planNoExecuteEvictions
  have once := distinct.sublist (List.Sublist.map (·.podId) (List.filter_sublist (l := nodePlacements)
    (p := fun placement => (noExecute nodeTaints).any (drivesOut nowUnix (tolerationsFor placement)))))
  simp only
  generalize List.map _ _ = evict at once ⊢
  have total : Std.Total fun left right : String => (compare left right).isLE = true := ⟨fun left right => by
    simpa only [Std.LawfulBCmp.isLE_iff_le] using le_total left right⟩
  have trans : IsTrans String fun left right => (compare left right).isLE = true := ⟨fun left middle right => by
    simpa only [Std.LawfulBCmp.isLE_iff_le] using le_trans⟩
  have sorted := List.pairwise_insertionSort (fun left right : String => (compare left right).isLE) evict
  have same := List.perm_insertionSort (fun left right : String => (compare left right).isLE) evict
  have apart := same.nodup_iff.mpr once
  rw [List.destutter_of_isChain _ _ apart.isChain]
  refine ⟨(sorted.and apart).imp ?_,same⟩
  rintro left right ⟨least,differ⟩
  exact lt_of_le_of_ne (Std.LawfulBCmp.isLE_iff_le.mp least) differ

theorem mem_planNoExecuteEvictions (distinct : (nodePlacements.map (·.podId)).Nodup)
    (fits : AgesFit nowUnix nodeTaints) : podId ∈ planNoExecuteEvictions nowUnix nodeTaints nodePlacements tolerationsFor ↔
      ∃ placement ∈ nodePlacements, placement.podId = podId ∧ DrivenOut nowUnix nodeTaints (tolerationsFor placement) := by
  rw [(planNoExecuteEvictions_sorted distinct).2.mem_iff,mem_map]
  constructor
  · rintro ⟨placement,inside,named⟩
    obtain ⟨member,driven⟩ := mem_filter.mp inside
    obtain ⟨taint,tainted,out⟩ := List.any_eq_true.mp driven
    exact ⟨placement,member,named,taint,tainted,(drivesOut_iff (fits taint tainted)).mp out⟩
  · rintro ⟨placement,member,named,taint,tainted,lapsed⟩
    have out := (drivesOut_iff (fits taint tainted)).mpr lapsed
    exact ⟨placement,mem_filter.mpr ⟨member,List.any_eq_true.mpr ⟨taint,tainted,out⟩⟩,named⟩

/-- Time adds pods to the plan and tolerations take them off. -/
theorem planNoExecuteEvictions_exact (distinct : (nodePlacements.map (·.podId)).Nodup)
    (fits : AgesFit nowUnix nodeTaints) :
    (planNoExecuteEvictions nowUnix nodeTaints nodePlacements tolerationsFor).Pairwise (· < ·) ∧
    (∀ podId, podId ∈ planNoExecuteEvictions nowUnix nodeTaints nodePlacements tolerationsFor ↔
      ∃ placement ∈ nodePlacements, placement.podId = podId ∧ DrivenOut nowUnix nodeTaints (tolerationsFor placement)) ∧
    (∀ later, nowUnix ≤ later → AgesFit later nodeTaints →
      planNoExecuteEvictions nowUnix nodeTaints nodePlacements tolerationsFor ⊆
        planNoExecuteEvictions later nodeTaints nodePlacements tolerationsFor) ∧
    ∀ more : Placement → List Toleration, (∀ placement, tolerationsFor placement ⊆ more placement) →
      planNoExecuteEvictions nowUnix nodeTaints nodePlacements more ⊆
        planNoExecuteEvictions nowUnix nodeTaints nodePlacements tolerationsFor := by
  refine ⟨(planNoExecuteEvictions_sorted distinct).1,fun _ => mem_planNoExecuteEvictions distinct fits,?_,?_⟩
  · intro later passes stillFits podId planned
    obtain ⟨placement,member,named,driven⟩ := (mem_planNoExecuteEvictions distinct fits).mp planned
    exact (mem_planNoExecuteEvictions distinct stillFits).mpr ⟨placement,member,named,driven.mono passes⟩
  · intro more added podId planned
    obtain ⟨placement,member,named,taint,tainted,lapsed⟩ := (mem_planNoExecuteEvictions distinct fits).mp planned
    refine (mem_planNoExecuteEvictions distinct fits).mpr ⟨placement,member,named,taint,tainted,?_⟩
    exact fun toleration known => lapsed toleration (added placement known)

/-- Exactly if no grace ends earlier than some grace would that counts from the placement. -/
theorem runs_toleration_time_iff (distinct : (nodePlacements.map (·.podId)).Nodup) {pod : Placement}
    (member : pod ∈ nodePlacements) (admitted : passesTaintFilter (tolerationsFor pod) nodeTaints = true)
    {placedAt : Int64} (placed : ClockReading placedAt)
    (added : ∀ taint ∈ noExecute nodeTaints, ClockReading taint.timeAddedUnix) :
    (∀ now, ClockReading now → placedAt ≤ now →
      pod.podId ∈ planNoExecuteEvictions now nodeTaints nodePlacements tolerationsFor →
      ∃ taint ∈ noExecute nodeTaints, Lapsed (now.toInt - placedAt.toInt) (tolerationsFor pod) taint) ↔
    ∀ taint ∈ noExecute nodeTaints, Limited (tolerationsFor pod) taint →
      taint.timeAddedUnix.toInt + (grace (tolerationsFor pod) taint).toInt + 1 < 2^62 →
      ∃ other ∈ noExecute nodeTaints, Limited (tolerationsFor pod) other ∧
        placedAt.toInt + (grace (tolerationsFor pod) other).toInt ≤
          taint.timeAddedUnix.toInt + (grace (tolerationsFor pod) taint).toInt := by
  have tolerated : ∀ taint ∈ noExecute nodeTaints, isTolerated (tolerationsFor pod) taint = true := by
    intro taint tainted
    obtain ⟨listed,effect⟩ := mem_filter.mp tainted
    exact List.all_eq_true.mp admitted taint (mem_filter.mpr ⟨listed,by simp_all⟩)
  have fits : ∀ now, ClockReading now → AgesFit now nodeTaints := by
    intro now reading taint tainted
    have early := added taint tainted
    unfold ClockReading at reading early
    unfold NodeTaint.age
    omega
  have own : ∀ now, ClockReading now →
      (pod.podId ∈ planNoExecuteEvictions now nodeTaints nodePlacements tolerationsFor ↔
        DrivenOut now nodeTaints (tolerationsFor pod)) := by
    intro now reading
    rw [mem_planNoExecuteEvictions distinct (fits now reading)]
    constructor
    · rintro ⟨placement,listed,same,driven⟩
      rw [← List.inj_on_of_nodup_map distinct listed member same]
      exact driven
    · exact fun driven => ⟨pod,member,rfl,driven⟩
  constructor
  · intro stays taint tainted limited soon
    have early := added taint tainted
    unfold ClockReading at placed early
    -- the first moment at which the pod is there and this grace is over
    obtain ⟨now,shown⟩ : ∃ now : Int64, now.toInt =
        max placedAt.toInt (taint.timeAddedUnix.toInt + (grace (tolerationsFor pod) taint).toInt + 1) := by
      refine ⟨.ofInt (max placedAt.toInt (taint.timeAddedUnix.toInt + (grace (tolerationsFor pod) taint).toInt + 1)),?_⟩
      exact Int64.toInt_ofInt_of_le (by omega) (by omega)
    have reading : ClockReading now := by
      unfold ClockReading
      omega
    have ended : DrivenOut now nodeTaints (tolerationsFor pod) := by
      refine ⟨taint,tainted,(lapsed_iff (tolerated taint tainted)).mpr ⟨limited,?_⟩⟩
      unfold NodeTaint.age
      omega
    obtain ⟨other,known,lapsed⟩ :=
      stays now reading (Int64.le_iff_toInt_le.mpr (by omega)) ((own now reading).mpr ended)
    obtain ⟨patient,run⟩ := (lapsed_iff (tolerated other known)).mp lapsed
    have positive := grace_nonneg (tolerationsFor pod) other
    exact ⟨other,known,patient,by omega⟩
  · intro late now reading _ planned
    obtain ⟨taint,tainted,lapsed⟩ := (own now reading).mp planned
    obtain ⟨limited,expired⟩ := (lapsed_iff (tolerated taint tainted)).mp lapsed
    unfold ClockReading at reading
    unfold NodeTaint.age at expired
    obtain ⟨other,known,patient,earlier⟩ := late taint tainted limited (by omega)
    exact ⟨other,known,(lapsed_iff (tolerated other known)).mpr ⟨patient,by omega⟩⟩

end

open Reference

def spotTaint : NodeTaint := ⟨"spot","","NoExecute",100⟩

def patience : Toleration := ⟨"spot","Exists","","NoExecute",60⟩

def patientShop : WorkloadSpec :=
  { shopSpec "web" 1 with podSpec := some { ({} : PodSpec) with tolerations := [patience] } }

def taintedWorker : Node :=
  (apply (clusterOf [workerNode workerId 1000 1073741824 "zone-a"])
    [commandAt 3 (.setNodeTaints workerId.1 [spotTaint]),
      commandAt 4 (.submitWorkloadSpec ⟨"acme","shop",encodeWorkloadSpec patientShop,[]⟩)]).1

def patientPod : Placement := ⟨"shop-web-0","acme","shop","web",0,workerId,⟨500,536870912⟩⟩

theorem planNoExecuteEvictions_exact_shop :
    AgesFit 1000 [spotTaint] ∧ planNoExecuteEvictions 1000 [spotTaint] [patientPod] (fun _ => [patience]) ⊆
      planNoExecuteEvictions 2000 [spotTaint] [patientPod] fun _ => [patience] := by
  have early : AgesFit 1000 [spotTaint] := by unfold AgesFit; decide
  have late : AgesFit 2000 [spotTaint] := by unfold AgesFit; decide
  exact ⟨early,(planNoExecuteEvictions_exact (by decide) early).2.2.1 2000 (by decide) late⟩

theorem runs_toleration_time_shop : ClockReading 100 ∧ ∀ now, ClockReading now → 100 ≤ now →
    patientPod.podId ∈ planNoExecuteEvictions now [spotTaint] [patientPod] (fun _ => [patience]) →
    ∃ taint ∈ noExecute [spotTaint], Lapsed (now.toInt - (100 : Int64).toInt) [patience] taint := by
  have reading : ClockReading 100 := by unfold ClockReading; decide
  have added : ∀ taint ∈ noExecute [spotTaint], ClockReading taint.timeAddedUnix := by unfold ClockReading; decide
  have limited : Limited [patience] spotTaint := by unfold Limited; decide
  refine ⟨reading,(@runs_toleration_time_iff _ _ [patientPod] (fun _ => [patience]) (by decide) patientPod
    mem_cons_self (by decide) 100 reading added).mpr ?_⟩
  intro taint tainted _ _
  rw [mem_singleton.mp (List.mem_of_mem_filter tainted)]
  exact ⟨spotTaint,by decide,limited,le_refl _⟩

/-- The pod tolerates the taint for a minute, and the taint is fifteen minutes old. -/
theorem pod_evicted_on_arrival :
    scanRecords Placement (reconciled taintedWorker 5 [patientShop]).2.disk .placements = [patientPod] ∧
    (NodeController.enforceNoExecuteTaints (reconciled taintedWorker 5 [patientShop]).2.disk 1000).filterMap
      (fun audited => match audited.cmd with | .removePlacement podId => some podId | _ => none) = [patientPod.podId] ∧
    ∀ taint ∈ noExecute [spotTaint], ¬Lapsed (1000 - 1000) [patience] taint := by
  refine ⟨by decide +kernel,by decide +kernel,?_⟩
  unfold Lapsed
  decide

end FleetosControl
