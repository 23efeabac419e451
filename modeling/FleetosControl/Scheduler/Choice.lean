import FleetosControl.Lib.Selection
import FleetosControl.Scheduler.Capacity

/-! Which node the scheduler chooses: of those that pass the filters, the best by score and then by
id. Spread counts a thousand times as much as packing. -/
namespace FleetosControl
open Selection

theorem isLE_then {κ : Type} [LinearOrder κ] (left right : κ) (rest : Ordering) :
    ((compare left right).then rest).isLE = true ↔ left < right ∨ left = right ∧ rest.isLE = true := by
  rcases lt_trichotomy left right with less | same | more
  · simp [compare_lt_iff_lt.mpr less,less]
  · simp [same]
  · simp [compare_gt_iff_gt.mpr more,not_lt.mpr more.le,more.ne']

theorem textCmp_isLE (left right : String) : (textCmp left right).isLE = true ↔ textCmp left right ≠ .gt :=
  Ordering.ne_gt_iff_isLE.symm

theorem passesTaintFilter_iff :
    passesTaintFilter tolerations taints = true ↔ ∀ taint ∈ taints, taint.effect = "NoSchedule" ∨ taint.effect = "NoExecute" →
      ∃ toleration ∈ tolerations, tolerates toleration taint = true := by
  simp only [passesTaintFilter,isTolerated,List.all_eq_true,mem_filter,Bool.or_eq_true,decide_eq_true_eq,
    List.any_eq_true,and_imp]

section
variable [FleetosCore]

def placedLoad (dimension : Dimension) (placements : List Placement) (nodeId : SpiffeId) : Nat :=
  ((placements.filter fun placement => placement.nodeId = nodeId).map fun placement =>
    (dimension.amount placement.resources).toNat).sum

structure Suits (pod : PendingPod) (records : List NodeRecord) (placements : List Placement)
    (nodeTaints : String → List NodeTaint) (record : NodeRecord) (nodeId : SpiffeId) : Prop where
  parsed : parse record.nodeId = .ok nodeId
  active : record.status = .active
  schedulable : record.schedulable = true
  room : ∀ dimension : Dimension, (dimension.amount pod.resources).toNat ≤
    (dimension.amount record.capacity).toNat - placedLoad dimension placements nodeId
  apart : pod.role ∈ AntiAffinityConfig.default.enforcedRoles → ∀ placement ∈ placements,
    placement.service = pod.service → placement.role = pod.role → placement.nodeId ≠ nodeId ∧
      ∀ other ∈ records, parse other.nodeId = .ok placement.nodeId → other.failureDomain ≠ record.failureDomain
  tolerated : ∀ taint ∈ nodeTaints record.nodeId, taint.effect = "NoSchedule" ∨ taint.effect = "NoExecute" →
    ∃ toleration ∈ pod.tolerations, tolerates toleration taint = true

def listedIds (records : List NodeRecord) : List SpiffeId :=
  records.filterMap fun record => (parse record.nodeId).toOption

/-- By score, the higher the better, then by the text of the node's id. -/
def rankCmp : ScoreBreakdown × NodeInfo → ScoreBreakdown × NodeInfo → Ordering :=
  compareLex (compareOn fun scored => -scored.1.total)
    (compareOn fun scored => asBytes (display scored.2.nodeId))

instance : Std.TransCmp (α := ScoreBreakdown × NodeInfo) rankCmp := inferInstanceAs (Std.TransCmp (compareLex _ _))

theorem ranksBefore_iff (left right : ScoreBreakdown × NodeInfo) :
    RanksBefore left right ↔ (rankCmp left right).isLE = true := by
  have reads := isLE_then (-left.1.total) (-right.1.total)
    (textCmp (display left.2.nodeId) (display right.2.nodeId))
  rw [neg_lt_neg_iff,neg_inj,textCmp_isLE,eq_comm (a := left.1.total)] at reads
  exact reads.symm

theorem rankCmp_eq (tied : rankCmp left right = .eq) : left.2.nodeId = right.2.nodeId := by
  have texts : compare (asBytes (display left.2.nodeId)) (asBytes (display right.2.nodeId)) = .eq :=
    (Ordering.then_eq_eq.mp tied).2
  have same := asBytes_injective (Std.LawfulEqOrd.eq_of_compare texts)
  have parsed := congrArg parse same
  simpa using parsed

section
variable {pod : PendingPod} {state : ClusterState} {decision : ScheduleDecision}

def scored (pod : PendingPod) (state : ClusterState) (node : NodeInfo) : ScoreBreakdown × NodeInfo :=
  (scoreNode pod state node,node)

theorem schedule_nil (none : filterNodes pod state = []) : schedule pod state =
    .error (.noSuitableNode pod.podId "no nodes passed all filters (capacity + anti-affinity)") := by
  simp [schedule,none]

theorem schedule_least (ok : schedule pod state = .ok decision) : ∃ node,
    Least rankCmp ((filterNodes pod state).map (scored pod state)) (scored pod state node) ∧
      decision = ⟨node.nodeId,pod.podId,scoreNode pod state node⟩ := by
  unfold schedule at ok
  simp only at ok
  split at ok
  · cases ok
  · split at ok
    case h_1 => cases ok
    case h_2 breakdown node first =>
      cases ok
      have least : Least rankCmp ((filterNodes pod state).map (scored pod state)) (breakdown,node) :=
        head_insertionSort ranksBefore_iff first
      obtain ⟨candidate,_,same⟩ := mem_map.mp least.member
      cases same
      exact ⟨_,least,rfl⟩

theorem schedule_some (some : filterNodes pod state ≠ []) : ∃ decision, schedule pod state = .ok decision := by
  cases outcome : schedule pod state with
  | error error => exact (some (schedule_error.mp ⟨error,outcome⟩)).elim
  | ok decision => exact ⟨decision,rfl⟩

end

section
variable {left right : ClusterState} (nodes : left.nodes.Perm right.nodes) (placements : left.placements.Perm right.placements)
include nodes

theorem findNode_perm (distinct : (left.nodes.map (·.nodeId)).Nodup) (nodeId : SpiffeId) :
    left.findNode nodeId = right.findNode nodeId := find?_perm nodes distinct nodeId

include placements

theorem checkAntiAffinity_perm (distinct : (left.nodes.map (·.nodeId)).Nodup) (pod : PendingPod) (node : NodeInfo)
    (config : AntiAffinityConfig) : checkAntiAffinity pod node left config = checkAntiAffinity pod node right config := by
  have peers : (left.placementsForServiceRole pod.service pod.role).Perm
      (right.placementsForServiceRole pod.service pod.role) := placements.filter _
  unfold checkAntiAffinity
  simp only [findNode_perm nodes distinct]
  rw [peers.all_eq]

theorem filterNodes_perm (distinct : (left.nodes.map (·.nodeId)).Nodup) (pod : PendingPod) :
    (filterNodes pod left).Perm (filterNodes pod right) := by
  have open_nodes : left.schedulableNodes.Perm right.schedulableNodes := nodes.filter _
  unfold filterNodes
  simp only [checkAntiAffinity_perm nodes placements distinct]
  exact open_nodes.filter _

theorem scoreNode_perm (pod : PendingPod) (node : NodeInfo) : scoreNode pod left node = scoreNode pod right node := by
  have own : ((left.placementsOnNode node.nodeId).filter (·.tenantId = pod.tenantId)).length =
      ((right.placementsOnNode node.nodeId).filter (·.tenantId = pod.tenantId)).length :=
    ((placements.filter _).filter _).length_eq
  have tenant : (left.placementsForTenant pod.tenantId).length = (right.placementsForTenant pod.tenantId).length :=
    (placements.filter _).length_eq
  have pods : (left.nodes.map (·.podCount.toNat)).max? = (right.nodes.map (·.podCount.toNat)).max? := by
    apply Option.ext
    intro most
    simp only [List.max?_eq_some_iff,(nodes.map _).mem_iff]
  unfold scoreNode scoreTopologySpread
  rw [own,tenant,pods,nodes.length_eq]

theorem schedule_perm (distinct : (left.nodes.map (·.nodeId)).Nodup) (pod : PendingPod) :
    schedule pod left = schedule pod right := by
  have admitted := filterNodes_perm nodes placements distinct pod
  by_cases empty : filterNodes pod left = []
  · have other : filterNodes pod right = [] := List.Perm.nil_eq (empty ▸ admitted) |>.symm
    rw [schedule_nil empty,schedule_nil other]
  · have other : filterNodes pod right ≠ [] := fun none => empty (none ▸ admitted).eq_nil
    obtain ⟨chosen,one⟩ := schedule_some empty
    obtain ⟨again,two⟩ := schedule_some other
    obtain ⟨node,least,rfl⟩ := schedule_least one
    obtain ⟨second,lowest,rfl⟩ := schedule_least two
    have scores : scored pod right = scored pod left := by
      funext item
      rw [scored,scored,scoreNode_perm nodes placements]
    rw [scores] at lowest
    have same := rankCmp_eq (least.tied (lowest.perm (admitted.symm.map _)))
    have listed (item : NodeInfo)
        (least : Least rankCmp ((filterNodes pod left).map (scored pod left)) (scored pod left item)) :
        item ∈ left.nodes := by
      obtain ⟨candidate,passed,equal⟩ := mem_map.mp least.member
      obtain rfl : candidate = item := congrArg Prod.snd equal
      exact List.mem_of_mem_filter (List.mem_of_mem_filter passed)
    have equal := List.inj_on_of_nodup_map distinct (listed _ least) (listed _ (lowest.perm (admitted.symm.map _))) same
    rw [one,two,equal,scoreNode_perm nodes placements]

end

section
variable {pod : PendingPod} {records : List NodeRecord} {placements : List Placement}
  {nodeTaints : String → List NodeTaint} {record : NodeRecord} {nodeId : SpiffeId}

def NodeInfo.ofRecord (placements : List Placement) (nodeTaints : String → List NodeTaint) (record : NodeRecord)
    (nodeId : SpiffeId) : NodeInfo where
  nodeId := nodeId
  capacity := record.capacity
  available := record.capacity.subtract
    (((placements.filter fun placement => placement.nodeId = nodeId).map (·.resources)).foldl .add .zero)
  failureDomain := record.failureDomain
  schedulable := record.schedulable && record.status = .active
  podCount := UInt32.ofNat (placements.filter fun placement => placement.nodeId = nodeId).length
  taints := nodeTaints record.nodeId

@[simp] theorem NodeInfo.ofRecord_nodeId (record : NodeRecord) (nodeId : SpiffeId) :
    (NodeInfo.ofRecord placements nodeTaints record nodeId).nodeId = nodeId := rfl

theorem nodeInfo_parsed (parsed : parse record.nodeId = .ok nodeId) :
    nodeInfo placements nodeTaints record = some (.ofRecord placements nodeTaints record nodeId) := by
  rw [nodeInfo,parsed]
  rfl

theorem nodeInfo_iff : nodeInfo placements nodeTaints record = some node ↔ ∃ nodeId,
      parse record.nodeId = .ok nodeId ∧ node = .ofRecord placements nodeTaints record nodeId := by
  cases parsed : parse record.nodeId with
  | error e => simp [nodeInfo,parsed]
  | ok nodeId => simp [nodeInfo_parsed parsed,eq_comm]

theorem build_ids : (ClusterState.build records placements nodeTaints).nodes.map (·.nodeId) = listedIds records := by
  simp only [ClusterState.build,listedIds,List.map_filterMap]
  congr 1
  funext record
  cases parsed : parse record.nodeId with
  | error e => simp [nodeInfo,parsed,Except.toOption]
  | ok nodeId => simp [nodeInfo_parsed parsed,Except.toOption]

theorem nodeInfo_perm (same : placements.Perm others) :
    nodeInfo placements nodeTaints = nodeInfo others nodeTaints := by
  funext record
  cases parsed : parse record.nodeId with
  | error e => simp [nodeInfo,parsed]
  | ok nodeId =>
    have own := same.filter fun placement => placement.nodeId = nodeId
    have commutes (one other total : ResourceSpec) : (total.add one).add other = (total.add other).add one := by
      simp only [ResourceSpec.add,ResourceSpec.mk.injEq]
      exact ⟨by ac_rfl,by ac_rfl⟩
    have requested := (own.map (·.resources)).foldl_eq' (f := ResourceSpec.add) (fun one _ other _ total =>
      commutes one other total) ResourceSpec.zero
    rw [nodeInfo_parsed parsed,nodeInfo_parsed parsed,NodeInfo.ofRecord,NodeInfo.ofRecord,own.length_eq,requested]

theorem placed_available (capacity : ResourceSpec) (bounded : placedLoad dimension placements nodeId < 2 ^ 64) :
    (dimension.amount (capacity.subtract
      (((placements.filter fun placement => placement.nodeId = nodeId).map (·.resources)).foldl .add .zero))).toNat =
        (dimension.amount capacity).toNat - placedLoad dimension placements nodeId := by
  rw [ResourceSpec.amount_subtract,ResourceSpec.saturatingSub_toNat,ResourceSpec.foldl_add_toNat,
    ResourceSpec.amount_zero,List.map_map]
  change _ - (0 + placedLoad dimension placements nodeId) % 2 ^ 64 = _
  rw [Nat.zero_add,Nat.mod_eq_of_lt bounded]

section
variable (distinct : (listedIds records).Nodup) {nodeId : SpiffeId} {node : NodeInfo}

include distinct

theorem findNode_iff : (ClusterState.build records placements nodeTaints).findNode nodeId = some node ↔
      (∃ record ∈ records, nodeInfo placements nodeTaints record = some node) ∧ node.nodeId = nodeId := by
  have ids : ((ClusterState.build records placements nodeTaints).nodes.map (·.nodeId)).Nodup := build_ids ▸ distinct
  rw [ClusterState.findNode,find?_unique ids,ClusterState.build,mem_filterMap]

theorem sharesDomain_iff :
    ((ClusterState.build records placements nodeTaints).findNode nodeId).any (·.failureDomain = domain) = true ↔
      ∃ record ∈ records, parse record.nodeId = .ok nodeId ∧ record.failureDomain = domain := by
  rw [Option.any_eq_true]
  constructor
  · rintro ⟨node,found,named⟩
    obtain ⟨⟨record,member,made⟩,rfl⟩ := (findNode_iff distinct).mp found
    obtain ⟨nodeId,parsed,rfl⟩ := nodeInfo_iff.mp made
    exact ⟨record,member,parsed,of_decide_eq_true named⟩
  · rintro ⟨record,member,parsed,rfl⟩
    exact ⟨_,(findNode_iff distinct).mpr ⟨⟨record,member,nodeInfo_parsed parsed⟩,rfl⟩,decide_eq_true rfl⟩

theorem checkAntiAffinity_iff :
    checkAntiAffinity pod node (ClusterState.build records placements nodeTaints) .default = true ↔
      (pod.role ∈ AntiAffinityConfig.default.enforcedRoles → ∀ placement ∈ placements,
        placement.service = pod.service → placement.role = pod.role → placement.nodeId ≠ node.nodeId ∧
          ∀ other ∈ records, parse other.nodeId = .ok placement.nodeId →
            other.failureDomain ≠ node.failureDomain) := by
  have crossing : AntiAffinityConfig.default.crossZone = true := rfl
  rw [checkAntiAffinity,Bool.or_eq_true,Bool.not_eq_true',List.contains_eq_mem,decide_eq_false_iff_not,
    ← imp_iff_not_or,List.all_eq_true]
  simp only [ClusterState.placementsForServiceRole,mem_filter,Bool.and_eq_true,decide_eq_true_eq,crossing,
    Bool.true_and,Bool.not_eq_true',← Bool.not_eq_true,sharesDomain_iff distinct]
  simp only [not_exists,not_and,and_imp]
  rfl

variable (bounded : ∀ (dimension : Dimension) (nodeId : SpiffeId), placedLoad dimension placements nodeId < 2 ^ 64)
include bounded

theorem mem_filterNodes : node ∈ filterNodes pod (.build records placements nodeTaints) ↔
    ∃ record ∈ records, ∃ nodeId, node = .ofRecord placements nodeTaints record nodeId ∧
      Suits pod records placements nodeTaints record nodeId := by
  have admits (record : NodeRecord) (nodeId : SpiffeId) (parsed : parse record.nodeId = .ok nodeId) :
      ((NodeInfo.ofRecord placements nodeTaints record nodeId).schedulable = true ∧
        pod.resources.fitsWithin (NodeInfo.ofRecord placements nodeTaints record nodeId).available = true ∧
        checkAntiAffinity pod (.ofRecord placements nodeTaints record nodeId) (.build records placements nodeTaints)
          .default = true ∧
        passesTaintFilter pod.tolerations (NodeInfo.ofRecord placements nodeTaints record nodeId).taints = true) ↔
      Suits pod records placements nodeTaints record nodeId := by
    rw [checkAntiAffinity_iff distinct,passesTaintFilter_iff,ResourceSpec.fitsWithin_iff]
    simp only [UInt64.le_iff_toNat_le,NodeInfo.ofRecord,placed_available record.capacity (bounded _ nodeId),
      Bool.and_eq_true,decide_eq_true_eq]
    constructor
    · rintro ⟨⟨schedulable,active⟩,room,apart,tolerated⟩
      exact ⟨parsed,active,schedulable,room,apart,tolerated⟩
    · rintro ⟨_,active,schedulable,room,apart,tolerated⟩
      exact ⟨⟨schedulable,active⟩,room,apart,tolerated⟩
  simp only [filterNodes,ClusterState.schedulableNodes,mem_filter,Bool.and_eq_true]
  constructor
  · rintro ⟨⟨listed,schedulable⟩,⟨fits,apart⟩,tolerated⟩
    obtain ⟨record,member,made⟩ := mem_filterMap.mp listed
    obtain ⟨nodeId,parsed,rfl⟩ := nodeInfo_iff.mp made
    exact ⟨record,member,nodeId,rfl,(admits record nodeId parsed).mp ⟨schedulable,fits,apart,tolerated⟩⟩
  · rintro ⟨record,member,nodeId,rfl,suits⟩
    obtain ⟨schedulable,fits,apart,tolerated⟩ := (admits record nodeId suits.parsed).mpr suits
    exact ⟨⟨mem_filterMap.mpr ⟨record,member,nodeInfo_parsed suits.parsed⟩,schedulable⟩,⟨fits,apart⟩,tolerated⟩

/-- No node is lost to a pod that asks for less or tolerates more, nor by taking placements or taints away. -/
theorem candidates_mono {easier : PendingPod} (alike : easier.service = pod.service ∧ easier.role = pod.role)
    (less : ∀ dimension : Dimension, dimension.amount easier.resources ≤ dimension.amount pod.resources)
    (tolerant : pod.tolerations ⊆ easier.tolerations) {fewer : List Placement} (freed : fewer.Sublist placements)
    {lighter : String → List NodeTaint} (untainted : ∀ nodeId, lighter nodeId ⊆ nodeTaints nodeId)
    (passes : node ∈ filterNodes pod (.build records placements nodeTaints)) :
    ∃ same ∈ filterNodes easier (.build records fewer lighter), same.nodeId = node.nodeId := by
  have lower (dimension : Dimension) (nodeId : SpiffeId) :
      placedLoad dimension fewer nodeId ≤ placedLoad dimension placements nodeId :=
    ((freed.filter _).map _).sum_le_sum fun _ _ => Nat.zero_le _
  obtain ⟨record,member,nodeId,rfl,suits⟩ := (mem_filterNodes distinct bounded).mp passes
  refine ⟨.ofRecord fewer lighter record nodeId,(mem_filterNodes distinct fun dimension nodeId =>
    (lower dimension nodeId).trans_lt (bounded dimension nodeId)).mpr ⟨record,member,nodeId,rfl,?_⟩,rfl⟩
  refine { suits with room := fun dimension => ?_, apart := ?_, tolerated := fun taint found blocks => ?_ }
  · have fits := suits.room dimension
    have light := UInt64.le_iff_toNat_le.mp (less dimension)
    have load := lower dimension nodeId
    omega
  · rw [alike.1,alike.2]
    exact fun enforced placement placed => suits.apart enforced placement (freed.subset placed)
  · obtain ⟨toleration,own,fits⟩ := suits.tolerated taint (untainted _ found) blocks
    exact ⟨toleration,tolerant own,fits⟩

end

def combinedScore (pod : PendingPod) (records : List NodeRecord) (placements : List Placement)
    (nodeTaints : String → List NodeTaint) (record : NodeRecord) (nodeId : SpiffeId) : ℚ :=
  (scoreNode pod (.build records placements nodeTaints) (.ofRecord placements nodeTaints record nodeId)).total

/-- A pod goes to the best of the records that suit it, in whatever order they come. -/
theorem schedule_exact (pod : PendingPod) (records : List NodeRecord) (placements : List Placement)
    (nodeTaints : String → List NodeTaint) (distinct : (listedIds records).Nodup)
    (bounded : ∀ (dimension : Dimension) (nodeId : SpiffeId), placedLoad dimension placements nodeId < 2 ^ 64) :
    ((∃ decision, schedule pod (.build records placements nodeTaints) = .ok decision) ↔
      ∃ record ∈ records, ∃ nodeId, Suits pod records placements nodeTaints record nodeId) ∧
    (∀ decision, schedule pod (.build records placements nodeTaints) = .ok decision →
      ∃ record ∈ records, Suits pod records placements nodeTaints record decision.nodeId ∧
        ∀ other ∈ records, ∀ nodeId, Suits pod records placements nodeTaints other nodeId →
          combinedScore pod records placements nodeTaints other nodeId <
              combinedScore pod records placements nodeTaints record decision.nodeId ∨
            combinedScore pod records placements nodeTaints other nodeId =
              combinedScore pod records placements nodeTaints record decision.nodeId ∧
            textCmp (display decision.nodeId) (display nodeId) ≠ .gt) ∧
    ∀ others moved, records.Perm others → placements.Perm moved →
      schedule pod (.build others moved nodeTaints) = schedule pod (.build records placements nodeTaints) := by
  refine ⟨⟨?_,?_⟩,?_,?_⟩
  · rintro ⟨decision,ok⟩
    obtain ⟨node,passed,_⟩ := schedule_ok ok
    obtain ⟨record,member,nodeId,_,suits⟩ := (mem_filterNodes distinct bounded).mp passed
    exact ⟨record,member,nodeId,suits⟩
  · rintro ⟨record,member,nodeId,suits⟩
    exact schedule_some (List.ne_nil_of_mem ((mem_filterNodes distinct bounded).mpr ⟨record,member,nodeId,rfl,suits⟩))
  · intro decision ok
    obtain ⟨node,least,rfl⟩ := schedule_least ok
    obtain ⟨candidate,passed,same⟩ := mem_map.mp least.member
    obtain rfl : candidate = node := congrArg Prod.snd same
    obtain ⟨record,member,nodeId,rfl,suits⟩ := (mem_filterNodes distinct bounded).mp passed
    refine ⟨record,member,suits,fun other listed otherId fitting => ?_⟩
    have admitted := (mem_filterNodes distinct bounded).mpr ⟨other,listed,otherId,rfl,fitting⟩
    have ranks := (ranksBefore_iff _ _).mpr (least.least _ (List.mem_map_of_mem admitted))
    simpa only [RanksBefore,scored,combinedScore,NodeInfo.ofRecord_nodeId] using ranks
  · intro others moved reordered rearranged
    have nodes : (ClusterState.build records placements nodeTaints).nodes.Perm
        (ClusterState.build others moved nodeTaints).nodes := by
      rw [ClusterState.build,ClusterState.build,nodeInfo_perm rearranged]
      exact reordered.filterMap _
    exact (schedule_perm nodes rearranged (build_ids ▸ distinct) pod).symm

end

end

section
open Reference

def zoneRecords : List NodeRecord :=
  [workerNode workerId 1000 1073741824 "zone-a",workerNode sparesId 1000 1073741824 "zone-b"]

def firstReplica : Placement := ⟨"shop-replica-0","acme","shop","replica",0,workerId,⟨500,536870912⟩⟩

def secondReplica : PendingPod := ⟨"shop-replica-1","acme","shop","replica",1,⟨500,536870912⟩,0,[]⟩

theorem small_replica_passes : ∃ same ∈ filterNodes { secondReplica with resources := ⟨100,0⟩ }
    (.build zoneRecords [] fun _ => []), same.nodeId = workerId := by
  have first : (filterNodes secondReplica (.build zoneRecords [] fun _ => [])).head?.map (·.nodeId) = some workerId := by
    decide +kernel
  obtain ⟨node,listed,named⟩ := map_eq_some_iff.mp first
  rw [← named]
  exact candidates_mono (by decide +kernel) (by simp [placedLoad]) ⟨rfl,rfl⟩ (by rintro ⟨⟩ <;> decide) (List.Subset.refl _)
    (.refl _) (fun _ => List.Subset.refl _) (List.mem_of_mem_head? listed)

theorem second_replica_scheduled : ∃ decision,
    schedule secondReplica (.build zoneRecords [firstReplica] fun _ => []) = .ok decision := by
  have bounded (dimension : Dimension) (nodeId : Identity) : placedLoad dimension [firstReplica] nodeId < 2 ^ 64 := by
    by_cases here : firstReplica.nodeId = nodeId <;> cases dimension <;> simp [placedLoad,here] <;> decide
  refine (schedule_exact _ _ _ _ (by decide +kernel) bounded).1.mpr ⟨_,mem_cons_of_mem _ mem_cons_self,sparesId,?_⟩
  exact ⟨by decide +kernel,rfl,rfl,by decide +kernel,fun _ => by decide +kernel,by simp⟩

end

def ScoreBreakdown.net (breakdown : ScoreBreakdown) : ℚ := breakdown.topologyScore - breakdown.taintPenalty

section
variable [FleetosCore] {pod : PendingPod} {state : ClusterState} {one other : NodeInfo}

def RankedFirst (pod : PendingPod) (state : ClusterState) (one other : NodeInfo) : Prop :=
  [scored pod state one,scored pod state other].Sublist (scoreNodes pod (filterNodes pod state) state)

theorem rankedFirst_iff (left : one ∈ filterNodes pod state) (right : other ∈ filterNodes pod state)
    (distinct : one.nodeId ≠ other.nodeId) :
    RankedFirst pod state one other ↔ RanksBefore (scored pod state one) (scored pod state other) := by
  have sorted : (scoreNodes pod (filterNodes pod state) state).Pairwise RanksBefore :=
    sorted_insertionSort ranksBefore_iff _
  have listed {node} (passed : node ∈ filterNodes pod state) :
      scored pod state node ∈ scoreNodes pod (filterNodes pod state) state := mem_scoreNodes.mpr ⟨node,passed,rfl⟩
  constructor
  · intro first
    exact List.rel_of_pairwise_cons (sorted.sublist first) mem_cons_self
  · intro ranks
    obtain ⟨before,after,whole⟩ := List.append_of_mem (listed left)
    have inside := listed right
    unfold RankedFirst
    rw [whole] at inside sorted ⊢
    rcases mem_append.mp inside with early | late
    · have back := (List.pairwise_append.mp sorted).2.2 _ early _ mem_cons_self
      have tied := Std.OrientedCmp.isLE_antisymm ((ranksBefore_iff _ _).mp ranks) ((ranksBefore_iff _ _).mp back)
      exact (distinct (rankCmp_eq tied)).elim
    · rcases mem_cons.mp late with same | late
      · exact (distinct (congrArg (·.2.nodeId) same).symm).elim
      · exact ((List.singleton_sublist.mpr late).cons_cons _).trans (List.sublist_append_right _ _)

/-- A higher net score decides while it is higher by more than a thousandth of the lead in packing. -/
theorem net_score_decides_iff (pod : PendingPod) (state : ClusterState) (one other : NodeInfo)
    (left : one ∈ filterNodes pod state) (right : other ∈ filterNodes pod state) (distinct : one.nodeId ≠ other.nodeId) :
    let mine := scoreNode pod state one
    let its := scoreNode pod state other
    (its.net < mine.net → (RankedFirst pod state one other ↔
      its.binpackScore - mine.binpackScore < 1000 * (mine.net - its.net) ∨
      its.binpackScore - mine.binpackScore = 1000 * (mine.net - its.net) ∧
        textCmp (display one.nodeId) (display other.nodeId) ≠ .gt)) ∧
    (its.net = mine.net → its.binpackScore < mine.binpackScore → RankedFirst pod state one other) := by
  intro mine its
  rw [rankedFirst_iff left right distinct]
  change (_ → (its.total < mine.total ∨ its.total = mine.total ∧ _ ↔ _)) ∧ (_ → _ → its.total < mine.total ∨ _)
  have lead : mine.total - its.total = 1000 * (mine.net - its.net) - (its.binpackScore - mine.binpackScore) := by
    unfold ScoreBreakdown.total ScoreBreakdown.net
    ring
  refine ⟨fun _ => or_congr ?_ (and_congr_left' ?_),fun same packed => .inl ?_⟩
  · constructor <;> intro less <;> linarith
  · constructor <;> intro less <;> linarith
  · rw [same] at lead
    linarith

end

section
open Reference

def fullId : Identity := ⟨"spiffe://fleet.example.internal/ns/system/node/full",by decide⟩

def podsOn (nodeId : Identity) (tenantId : String) (count : Nat) : List Placement :=
  (List.range count).map fun ordinal => ⟨toString ordinal,tenantId,"shop","web",.ofNat ordinal,nodeId,⟨100,100⟩⟩

def packedPods : List Placement := podsOn sparesId "acme" 4 ++ podsOn fullId "acme" 6 ++ podsOn fullId "other" 3

def nodeOf (nodeId : Identity) (capacity : UInt64) : NodeInfo :=
  .ofRecord packedPods (fun id => if id = workerId.1 then [⟨"slow","","PreferNoSchedule",0⟩] else [])
    (workerNode nodeId capacity capacity nodeId.1) nodeId

/-- An empty node with a mild taint, one that the pod would fill, and one that is full. -/
def packedView : ClusterState := ⟨[nodeOf workerId 100000,nodeOf sparesId 500,nodeOf fullId 900],packedPods⟩

def packedPod : PendingPod := ⟨"13","acme","shop","web",13,⟨100,100⟩,0,[]⟩

theorem packedView_candidates : filterNodes packedPod packedView = [nodeOf workerId 100000,nodeOf sparesId 500] := rfl

theorem packing_decides : ¬RankedFirst packedPod packedView (nodeOf workerId 100000) (nodeOf sparesId 500) := by
  have decides := net_score_decides_iff packedPod packedView (nodeOf workerId 100000) (nodeOf sparesId 500)
    (by simp [packedView_candidates]) (by simp [packedView_candidates]) (by decide +kernel)
  rw [decides.1 (by decide +kernel)]
  decide +kernel

/-- The empty node's net score is higher by 1/1404, and the pod goes to the other. -/
theorem packing_overrules_spread : filterNodes packedPod packedView = [nodeOf workerId 100000,nodeOf sparesId 500] ∧
    (scoreNode packedPod packedView (nodeOf sparesId 500)).net + 1 / 1404 =
      (scoreNode packedPod packedView (nodeOf workerId 100000)).net ∧
    (schedule packedPod packedView).toOption.map (·.nodeId) = some sparesId :=
  ⟨rfl,by decide +kernel,by decide +kernel⟩

end

section
variable [FleetosCore]

def NodeInfo.standing (node : NodeInfo) : SpiffeId × ResourceSpec × String × Bool × List NodeTaint :=
  (node.nodeId,node.capacity,node.failureDomain,node.schedulable,node.taints)

/-- Two views of the same nodes that show the same pods of a tenant. -/
structure DiffersElsewhere (tenantId : String) (left right : ClusterState) : Prop where
  nodes : left.nodes.map NodeInfo.standing = right.nodes.map NodeInfo.standing
  own : ∀ placement, placement.tenantId = tenantId → (placement ∈ left.placements ↔ placement ∈ right.placements)

def RoomToSpare (pod : PendingPod) (left right : ClusterState) : Prop :=
  ∀ placement ∈ left.placements ++ right.placements, placement.tenantId ≠ pod.tenantId →
    ∀ node ∈ left.nodes ++ right.nodes, node.nodeId = placement.nodeId → pod.resources.fitsWithin node.available = true

instance (pod : PendingPod) (left right : ClusterState) : Decidable (RoomToSpare pod left right) :=
  inferInstanceAs (Decidable (∀ placement ∈ left.placements ++ right.placements, _ → ∀ node ∈ left.nodes ++ right.nodes, _))

def Near (config : AntiAffinityConfig) (state : ClusterState) (node : NodeInfo) (placement : Placement) : Prop :=
  placement.nodeId = node.nodeId ∨ config.crossZone = true ∧ state.domainOf placement.nodeId = some node.failureDomain

def ClosedBy (whose : String → Prop) (pod : PendingPod) (config : AntiAffinityConfig) (state : ClusterState)
    (node : NodeInfo) : Prop :=
  ∃ placement ∈ state.placements, whose placement.tenantId ∧ placement.service = pod.service ∧
    placement.role = pod.role ∧ Near config state node placement

section
variable {pod : PendingPod} {config : AntiAffinityConfig} {state left right : ClusterState} {node : NodeInfo}

theorem checkAntiAffinity_eq_true : checkAntiAffinity pod node state config = true ↔
    (pod.role ∈ config.enforcedRoles → ¬ClosedBy (· = pod.tenantId) pod config state node ∧
      ¬ClosedBy (· ≠ pod.tenantId) pod config state node) := by
  have domain (placement : Placement) : (state.findNode placement.nodeId).any (·.failureDomain = node.failureDomain) = true ↔
      state.domainOf placement.nodeId = some node.failureDomain := by
    rw [ClusterState.domainOf,Option.any_eq_true,map_eq_some_iff]
    simp
  rw [checkAntiAffinity,Bool.or_eq_true,Bool.not_eq_true',List.contains_eq_mem,decide_eq_false_iff_not,
    ← imp_iff_not_or,List.all_eq_true]
  apply imp_congr_right
  intro _
  simp only [ClusterState.placementsForServiceRole,mem_filter,Bool.and_eq_true,decide_eq_true_eq,
    Bool.not_eq_true',← Bool.not_eq_true,domain]
  constructor
  · intro clear
    constructor
    · rintro ⟨placement,member,_,service,role,near⟩
      obtain ⟨elsewhere,apart⟩ := clear placement ⟨member,service,role⟩
      exact near.elim elsewhere apart
    · rintro ⟨placement,member,_,service,role,near⟩
      obtain ⟨elsewhere,apart⟩ := clear placement ⟨member,service,role⟩
      exact near.elim elsewhere apart
  · rintro ⟨mine,others⟩ placement ⟨member,service,role⟩
    have far : ¬Near config state node placement := by
      intro near
      by_cases own : placement.tenantId = pod.tenantId
      · exact mine ⟨placement,member,own,service,role,near⟩
      · exact others ⟨placement,member,own,service,role,near⟩
    exact ⟨fun here => far (.inl here),fun shared => far (.inr shared)⟩

theorem domainOf_standing (same : left.nodes.map NodeInfo.standing = right.nodes.map NodeInfo.standing) (nodeId : SpiffeId) :
    left.domainOf nodeId = right.domainOf nodeId := by
  have reads (state : ClusterState) : state.domainOf nodeId =
      ((state.nodes.map NodeInfo.standing).find? fun node => node.1 = nodeId).map (·.2.2.1) := by
    rw [List.find?_map,Option.map_map]
    rfl
  rw [reads,reads,same]

theorem closedBy_own (agree : DiffersElsewhere pod.tenantId left right) :
    ClosedBy (· = pod.tenantId) pod config left node ↔ ClosedBy (· = pod.tenantId) pod config right node := by
  unfold ClosedBy Near
  simp only [domainOf_standing agree.nodes]
  constructor
  · rintro ⟨placement,member,own,rest⟩
    exact ⟨placement,(agree.own placement own).mp member,own,rest⟩
  · rintro ⟨placement,member,own,rest⟩
    exact ⟨placement,(agree.own placement own).mpr member,own,rest⟩

end

/-- Exactly if other tenants have pods of the same service and role near the same open nodes. -/
theorem admits_same_iff (pod : PendingPod) (config : AntiAffinityConfig) (left right : ClusterState)
    (agree : DiffersElsewhere pod.tenantId left right) :
    (∀ node ∈ left.nodes, checkAntiAffinity pod node left config = checkAntiAffinity pod node right config) ↔
      (pod.role ∈ config.enforcedRoles → ∀ node ∈ left.nodes, ¬ClosedBy (· = pod.tenantId) pod config left node →
        (ClosedBy (· ≠ pod.tenantId) pod config left node ↔ ClosedBy (· ≠ pod.tenantId) pod config right node)) := by
  have verdict (node : NodeInfo) : checkAntiAffinity pod node left config = checkAntiAffinity pod node right config ↔
      (pod.role ∈ config.enforcedRoles → ¬ClosedBy (· = pod.tenantId) pod config left node →
        (ClosedBy (· ≠ pod.tenantId) pod config left node ↔ ClosedBy (· ≠ pod.tenantId) pod config right node)) := by
    rw [Bool.eq_iff_iff,checkAntiAffinity_eq_true,checkAntiAffinity_eq_true,← closedBy_own agree]
    by_cases enforced : pod.role ∈ config.enforcedRoles
    · by_cases closed : ClosedBy (· = pod.tenantId) pod config left node
      · simp [enforced,closed]
      · simp [enforced,closed,not_iff_not]
    · simp [enforced]
  simp only [verdict]
  constructor
  · intro each enforced node member
    exact each node member enforced
  · intro each node member enforced
    exact each enforced node member

end

open Reference

def rivalReplica : Placement := ⟨"shop-replica-7","rival","shop","replica",7,workerId,⟨100,1024⟩⟩

def acmeReplica : PendingPod := ⟨"shop-replica-0","acme","shop","replica",0,⟨500,536870912⟩,0,[]⟩

def emptyZones : ClusterState := .build zoneRecords [] fun _ => []

def rivalZones : ClusterState := .build zoneRecords [rivalReplica] fun _ => []

theorem rival_differs : DiffersElsewhere "acme" emptyZones rivalZones := by
  refine ⟨by decide +kernel,fun placement own => ?_⟩
  have other : placement ≠ rivalReplica := by
    rintro rfl
    revert own
    decide
  simp [emptyZones,rivalZones,ClusterState.build,other]

def acmeWebPod : PendingPod := { acmeReplica with role := "web" }

theorem other_role_admitted : DiffersElsewhere acmeWebPod.tenantId emptyZones rivalZones ∧ ∀ node ∈ emptyZones.nodes,
    checkAntiAffinity acmeWebPod node emptyZones .default = checkAntiAffinity acmeWebPod node rivalZones .default :=
  ⟨rival_differs,(admits_same_iff acmeWebPod .default emptyZones rivalZones rival_differs).mpr
    fun enforced => absurd enforced (by decide)⟩

/-- One tenant's replica closes its node to the replicas of another tenant's service of the same name. -/
theorem rival_closes_node : DiffersElsewhere acmeReplica.tenantId emptyZones rivalZones ∧
    RoomToSpare acmeReplica emptyZones rivalZones ∧
    ¬∀ node ∈ emptyZones.nodes, checkAntiAffinity acmeReplica node emptyZones .default =
      checkAntiAffinity acmeReplica node rivalZones .default :=
  ⟨rival_differs,by decide +kernel,by decide +kernel⟩

end FleetosControl
