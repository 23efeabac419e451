import FleetosControl.Controllers.Workload

/-! Whether a node is asked for more than it has, or pods of one enforced role end up together. Both
are checked against the view of a pass. -/
namespace FleetosControl
open Wire KeyValue Trace

inductive Dimension where
  | cpu | memory
  deriving DecidableEq

def Dimension.amount : Dimension → ResourceSpec → UInt64
  | .cpu => ResourceSpec.cpuMillicores
  | .memory => ResourceSpec.memoryBytes

theorem Dimension.forall_iff {holds : Dimension → Prop} : (∀ dimension, holds dimension) ↔ holds .cpu ∧ holds .memory := by
  constructor
  · intro each
    exact ⟨each .cpu,each .memory⟩
  · rintro ⟨cpu,memory⟩ (_ | _)
    · exact cpu
    · exact memory

instance {holds : Dimension → Prop} [DecidablePred holds] : Decidable (∀ dimension, holds dimension) :=
  decidable_of_iff _ Dimension.forall_iff.symm

namespace ResourceSpec

@[simp] theorem amount_zero (dimension : Dimension) : dimension.amount zero = 0 := by cases dimension <;> rfl

@[simp] theorem amount_add (dimension : Dimension) (left right : ResourceSpec) :
    dimension.amount (left.add right) = dimension.amount left + dimension.amount right := by
  cases dimension <;> rfl

@[simp] theorem amount_subtract (dimension : Dimension) (left right : ResourceSpec) :
    dimension.amount (left.subtract right) = saturatingSub (dimension.amount left) (dimension.amount right) := by
  cases dimension <;> rfl

theorem fitsWithin_iff {request available : ResourceSpec} :
    request.fitsWithin available = true ↔ ∀ dimension : Dimension, dimension.amount request ≤ dimension.amount available := by
  rw [fitsWithin,Bool.and_eq_true,decide_eq_true_iff,decide_eq_true_iff,Dimension.forall_iff]
  rfl

theorem saturatingSub_toNat (left right : UInt64) : (saturatingSub left right).toNat = left.toNat - right.toNat := by
  unfold saturatingSub
  split
  case isTrue less =>
    have below := UInt64.lt_iff_toNat_lt.mp less
    rw [Nat.sub_eq_zero_of_le (by omega)]
    rfl
  case isFalse more => exact UInt64.toNat_sub_of_le _ _ (UInt64.not_lt.mp more)

theorem foldl_add_toNat (dimension : Dimension) (requests : List ResourceSpec) (first : ResourceSpec) :
    (dimension.amount (requests.foldl add first)).toNat =
      ((dimension.amount first).toNat + (requests.map fun request => (dimension.amount request).toNat).sum) % 2 ^ 64 := by
  induction requests generalizing first with
  | nil => simp
  | cons request requests ih =>
    rw [List.foldl_cons,ih,amount_add,UInt64.toNat_add,List.map_cons,List.sum_cons,Nat.mod_add_mod,Nat.add_assoc]

end ResourceSpec

section
variable [FleetosCore] [Formats] {disk : Disk} {node : NodeInfo}

def load (dimension : Dimension) (disk : Disk) (nodeId : SpiffeId) : Nat :=
  (((scanRecords Placement disk .placements).filter fun placement => placement.nodeId = nodeId).map
    fun placement => (dimension.amount placement.resources).toNat).sum

def WithinCapacity (disk : Disk) : Prop :=
  ∀ node ∈ (buildClusterState disk).nodes, ∀ dimension : Dimension,
    load dimension disk node.nodeId ≤ (dimension.amount node.capacity).toNat

instance (disk : Disk) : Decidable (WithinCapacity disk) :=
  inferInstanceAs (Decidable (∀ node ∈ (buildClusterState disk).nodes, ∀ _ : Dimension, _ ≤ _))

def RoomLeft (transition : Transition Node Entry) : Prop :=
  ∀ record ∈ WorkloadController.written transition.label,
    ∀ node ∈ (buildClusterState transition.before.disk).nodes, node.nodeId = record.nodeId →
      record.resources.fitsWithin node.available = true

instance (transition : Transition Node Entry) : Decidable (RoomLeft transition) :=
  inferInstanceAs (Decidable (∀ record ∈ WorkloadController.written transition.label,
    ∀ node ∈ (buildClusterState transition.before.disk).nodes, _ = _ → _ = true))

def weightOn (dimension : Dimension) (nodeId : SpiffeId) (bytes : Bytes) : Nat :=
  match fromBytes (α := Placement) bytes with
  | .ok placement => if placement.nodeId = nodeId then (dimension.amount placement.resources).toNat else 0
  | .error _ => 0

theorem load_eq_total (dimension : Dimension) (disk : Disk) (nodeId : SpiffeId) :
    load dimension disk nodeId = total (weightOn dimension nodeId) (disk .placements) := by
  unfold load scanRecords total
  induction (disk .placements).toList with
  | nil => rfl
  | cons entry entries ih =>
    rw [List.map_cons,List.sum_cons,← ih,weightOn,List.filterMap_cons]
    cases fromBytes (α := Placement) entry.2 with
    | error e => simp [Except.toOption]
    | ok placement => by_cases here : placement.nodeId = nodeId <;> simp [Except.toOption,here]

theorem mem_view (member : node ∈ (buildClusterState disk).nodes) : node.available = node.capacity.subtract
      ((((scanRecords Placement disk .placements).filter fun placement => placement.nodeId = node.nodeId).map
        (·.resources)).foldl .add .zero) := by
  obtain ⟨record,_,made⟩ := mem_filterMap.mp member
  unfold nodeInfo at made
  split at made
  · cases made
  · cases made
    rfl

theorem available_toNat (member : node ∈ (buildClusterState disk).nodes) (dimension : Dimension)
    (within : load dimension disk node.nodeId ≤ (dimension.amount node.capacity).toNat) :
    (dimension.amount node.available).toNat =
      (dimension.amount node.capacity).toNat - load dimension disk node.nodeId := by
  have bounded := (dimension.amount node.capacity).toNat_lt
  rw [mem_view member,ResourceSpec.amount_subtract,ResourceSpec.saturatingSub_toNat,ResourceSpec.foldl_add_toNat,
    ResourceSpec.amount_zero,List.map_map]
  change _ - (0 + load dimension disk node.nodeId) % 2 ^ 64 = _
  rw [Nat.zero_add,Nat.mod_eq_of_lt (by omega)]

theorem same_node (same : left .nodes = right .nodes) (member : node ∈ (buildClusterState left).nodes) :
    ∃ other ∈ (buildClusterState right).nodes, other.nodeId = node.nodeId ∧ other.capacity = node.capacity := by
  have fixed : node.fixed ∈ (buildClusterState right).nodes.map NodeInfo.fixed := by
    rw [← fixed_congr same]
    exact List.mem_map_of_mem member
  obtain ⟨other,inside,equal⟩ := mem_map.mp fixed
  simp only [NodeInfo.fixed,Prod.mk.injEq] at equal
  exact ⟨other,inside,equal.1,equal.2.1⟩

theorem placed_load {record : Placement}
    (placements : after .placements = (before .placements).insert (asBytes record.podId) (toAllocvec record))
    (dimension : Dimension) (nodeId : SpiffeId) :
    load dimension after nodeId ≤ load dimension before nodeId +
      if record.nodeId = nodeId then (dimension.amount record.resources).toNat else 0 := by
  rw [load_eq_total,load_eq_total,placements]
  have bound := total_insert_le (weightOn dimension nodeId) (before .placements) (asBytes record.podId) (toAllocvec record)
  have weight : weightOn dimension nodeId (toAllocvec record) =
      if record.nodeId = nodeId then (dimension.amount record.resources).toNat else 0 := by
    rw [weightOn,fromBytes_toAllocvec]
  rw [weight] at bound
  exact bound

theorem within_step (advances : Advances before entry after)
    (proposes : WorkloadController.Proposes ⟨before,entry,after⟩) (room : RoomLeft ⟨before,entry,after⟩)
    (within : WithinCapacity before.disk) : WithinCapacity after.disk := by
  obtain ⟨nodes,_,change⟩ := WorkloadController.pass_step advances proposes
  intro node member dimension
  obtain ⟨other,inside,sameId,sameCapacity⟩ := same_node nodes member
  have kept := within other inside dimension
  rw [sameId,sameCapacity] at kept
  rcases change with ⟨record,placed,placements⟩ | ⟨key,placements⟩ | placements
  · have added := placed_load placements dimension node.nodeId
    by_cases here : record.nodeId = node.nodeId
    · have fits := ResourceSpec.fitsWithin_iff.mp
        (room record placed other inside (sameId.trans here.symm)) dimension
      have free := available_toNat inside dimension (within other inside dimension)
      rw [sameId,sameCapacity] at free
      have asked := UInt64.le_iff_toNat_le.mp fits
      rw [free] at asked
      rw [if_pos here] at added
      omega
    · rw [if_neg here] at added
      omega
  · rw [load_eq_total,placements]
    rw [load_eq_total] at kept
    exact (total_erase_le _ _ _).trans kept
  · rw [load_eq_total,placements,← load_eq_total]
    exact kept

/-- A pass whose placements each find room when they are applied overcommits no node. -/
theorem pass_within_capacity (specs : List WorkloadSpec) {first last : Node} {trace : List (Transition Node Entry)}
    (within : WithinCapacity first.disk) (reconciles : WorkloadController.Reconciles specs first trace last)
    (room : ∀ transition ∈ trace, RoomLeft transition) : WithinCapacity last.disk := by
  obtain ⟨run,proposes⟩ := reconciles.run
  refine (run.invariant (fun node => WithinCapacity node.disk)
    (fun transition => WorkloadController.Proposes transition ∧ RoomLeft transition) ?_ within ?_).2
  · rintro before entry after advances ⟨proposed,roomy⟩ kept
    exact within_step advances proposed roomy kept
  · intro transition member
    exact ⟨proposes transition member,room transition member⟩

end

section
open Reference WorkloadController

def singleWorker : Node := clusterOf [workerNode workerId 500 536870912 "zone-a"]

theorem one_pod_fits : ((reconciled singleWorker 3 [shopSpec "web" 1]).2.disk .placements).size = 1 ∧
    WithinCapacity (reconciled singleWorker 3 [shopSpec "web" 1]).2.disk := by
  have reconciles : Reconciles [shopSpec "web" 1] singleWorker (reconciled singleWorker 3 [shopSpec "web" 1]).1
      (reconciled singleWorker 3 [shopSpec "web" 1]).2 := reconciled_ok (by decide +kernel)
  exact ⟨by decide +kernel,pass_within_capacity _ (by decide +kernel) reconciles (by decide +kernel)⟩

theorem two_pods_overcommit : WithinCapacity singleWorker.disk ∧
    Reconciles [shopSpec "web" 2] singleWorker (reconciled singleWorker 3 [shopSpec "web" 2]).1
      (reconciled singleWorker 3 [shopSpec "web" 2]).2 ∧
    ¬WithinCapacity (reconciled singleWorker 3 [shopSpec "web" 2]).2.disk := by
  refine ⟨by decide +kernel,reconciled_ok (by decide +kernel),by decide +kernel⟩

end

section
variable [FleetosCore] {left right other : Placement} {disk : Disk} {key : Bytes}

def ClusterState.domainOf (state : ClusterState) (nodeId : SpiffeId) : Option String :=
  (state.findNode nodeId).map (·.failureDomain)

def Apart (state : ClusterState) (left right : Placement) : Prop :=
  left.nodeId ≠ right.nodeId ∧
    ∀ domain, state.domainOf left.nodeId = some domain → state.domainOf right.nodeId ≠ some domain

instance (state : ClusterState) (left right : Placement) : Decidable (Apart state left right) :=
  decidable_of_iff (left.nodeId ≠ right.nodeId ∧
      ∀ domain ∈ state.domainOf left.nodeId, state.domainOf right.nodeId ≠ some domain) Iff.rfl

theorem Apart.symm (apart : Apart state left right) : Apart state right left :=
  ⟨apart.1.symm,fun domain one other => apart.2 domain other one⟩

def Peers (left right : Placement) : Prop :=
  left.tenantId = right.tenantId ∧ left.service = right.service ∧ left.role = right.role ∧
    left.role ∈ AntiAffinityConfig.default.enforcedRoles

instance (left right : Placement) : Decidable (Peers left right) := inferInstanceAs (Decidable (_ ∧ _ ∧ _ ∧ _))

theorem Peers.symm (peers : Peers left right) : Peers right left := by
  obtain ⟨tenant,service,role,enforced⟩ := peers
  exact ⟨tenant.symm,service.symm,role.symm,role ▸ enforced⟩

theorem domainOf_fixed (state : ClusterState) (nodeId : SpiffeId) :
    state.domainOf nodeId = ((state.nodes.map NodeInfo.fixed).find? fun node => node.1 = nodeId).map (·.2.2) := by
  rw [List.find?_map,Option.map_map]
  rfl

variable [Formats]

def placedPods (disk : Disk) : List (Bytes × Placement) :=
  (disk .placements).toList.filterMap fun entry =>
    (fromBytes (α := Placement) entry.2).toOption.map fun placement => (entry.1,placement)

theorem mem_placedPods :
    (key,placement) ∈ placedPods disk ↔ ∃ bytes, (disk .placements)[key]? = some bytes ∧ fromBytes bytes = .ok placement := by
  simp only [placedPods,mem_filterMap,Prod.exists,Std.ExtTreeMap.mem_toList_iff_getElem?_eq_some,
    map_eq_some_iff,toOption_eq_some,Prod.mk.injEq]
  constructor
  · rintro ⟨_,bytes,stored,_,decoded,rfl,rfl⟩
    exact ⟨bytes,stored,decoded⟩
  · rintro ⟨bytes,stored,decoded⟩
    exact ⟨key,bytes,stored,placement,decoded,rfl,rfl⟩

def AntiAffine (disk : Disk) : Prop :=
  ∀ left ∈ placedPods disk, ∀ right ∈ placedPods disk, left.1 ≠ right.1 → Peers left.2 right.2 →
    Apart (buildClusterState disk) left.2 right.2

instance (disk : Disk) : Decidable (AntiAffine disk) :=
  inferInstanceAs (Decidable (∀ left ∈ placedPods disk, ∀ right ∈ placedPods disk, _ ≠ _ → _ → _))

-- The check reads the role and the service of the pod.
def Placement.asPending (placement : Placement) : PendingPod :=
  ⟨placement.podId,placement.tenantId,placement.service,placement.role,placement.ordinal,placement.resources,0,[]⟩

def KeptApart (transition : Transition Node Entry) : Prop :=
  ∀ record ∈ WorkloadController.written transition.label,
    ((buildClusterState transition.before.disk).findNode record.nodeId).any (fun node =>
      checkAntiAffinity record.asPending node (buildClusterState transition.before.disk) .default) = true

instance (transition : Transition Node Entry) : Decidable (KeptApart transition) :=
  inferInstanceAs (Decidable (∀ record ∈ WorkloadController.written transition.label, _ = true))

theorem domainOf_congr {left right} (same : left .nodes = right .nodes) (nodeId : SpiffeId) :
    (buildClusterState left).domainOf nodeId = (buildClusterState right).domainOf nodeId := by
  rw [domainOf_fixed,domainOf_fixed,fixed_congr same]

theorem apart_congr {left right} (same : left .nodes = right .nodes) {one}
    (apart : Apart (buildClusterState left) one other) : Apart (buildClusterState right) one other := by
  refine ⟨apart.1,fun domain first second => ?_⟩
  rw [← domainOf_congr same] at first second
  exact apart.2 domain first second

theorem checked_apart {record : Placement} (checked : ((buildClusterState disk).findNode record.nodeId).any (fun node =>
      checkAntiAffinity record.asPending node (buildClusterState disk) .default) = true)
    (stored : (key,other) ∈ placedPods disk) (peers : Peers record other) :
    Apart (buildClusterState disk) record other := by
  obtain ⟨_,service,role,enforced⟩ := peers
  obtain ⟨bytes,lookup,decoded⟩ := mem_placedPods.mp stored
  have placed : other ∈ scanRecords Placement disk .placements := mem_scanRecords.mpr ⟨key,bytes,lookup,decoded⟩
  cases found : (buildClusterState disk).findNode record.nodeId with
  | none => simp [found] at checked
  | some node =>
    have here : node.nodeId = record.nodeId := by simpa using List.find?_some found
    rw [found,Option.any_some,checkAntiAffinity,Bool.or_eq_true] at checked
    rcases checked with exempt | each
    · simp [Placement.asPending,enforced] at exempt
    · have among : other ∈ (buildClusterState disk).placementsForServiceRole record.asPending.service
          record.asPending.role := by
        rw [ClusterState.placementsForServiceRole,mem_filter,buildClusterState_placements]
        exact ⟨placed,by simp [Placement.asPending,service,role]⟩
      have clear := List.all_eq_true.mp each other among
      rw [Bool.and_eq_true,decide_eq_true_iff] at clear
      refine ⟨fun same => clear.1 (same.symm.trans here.symm),fun domain one another => ?_⟩
      have own : node.failureDomain = domain := by simpa [ClusterState.domainOf,found] using one
      obtain ⟨host,hosted,named⟩ := map_eq_some_iff.mp another
      simp [AntiAffinityConfig.default,hosted,named,own] at clear

theorem antiAffine_step {before after entry} (advances : Advances before entry after)
    (proposes : WorkloadController.Proposes ⟨before,entry,after⟩) (kept : KeptApart ⟨before,entry,after⟩)
    (affine : AntiAffine before.disk) : AntiAffine after.disk := by
  obtain ⟨nodes,_,change⟩ := WorkloadController.pass_step advances proposes
  rintro ⟨key,left⟩ one ⟨other,right⟩ two distinct peers
  apply apart_congr nodes.symm
  have old : (key,left) ∈ placedPods before.disk → (other,right) ∈ placedPods before.disk →
      Apart (buildClusterState before.disk) left right := fun first second => affine _ first _ second distinct peers
  rw [mem_placedPods] at one two old
  rw [mem_placedPods] at old
  obtain ⟨bytes,found,decoded⟩ := one
  obtain ⟨bytes',found',decoded'⟩ := two
  rcases change with ⟨record,written,placements⟩ | ⟨removed,placements⟩ | placements
  · have checked := kept record written
    rw [placements,insert_eq_some] at found found'
    rcases found with ⟨rfl,rfl⟩ | ⟨elsewhere,found⟩
    · rcases found' with ⟨rfl,_⟩ | ⟨_,found'⟩
      · exact absurd rfl distinct
      · rw [fromBytes_iff] at decoded
        subst decoded
        exact checked_apart checked (mem_placedPods.mpr ⟨bytes',found',decoded'⟩) peers
    · rcases found' with ⟨rfl,rfl⟩ | ⟨_,found'⟩
      · rw [fromBytes_iff] at decoded'
        subst decoded'
        exact (checked_apart checked (mem_placedPods.mpr ⟨bytes,found,decoded⟩) peers.symm).symm
      · exact old ⟨bytes,found,decoded⟩ ⟨bytes',found',decoded'⟩
  · rw [placements,Std.ExtTreeMap.getElem?_erase] at found found'
    split at found
    · cases found
    · split at found'
      · cases found'
      · exact old ⟨bytes,found,decoded⟩ ⟨bytes',found',decoded'⟩
  · rw [placements] at found found'
    exact old ⟨bytes,found,decoded⟩ ⟨bytes',found',decoded'⟩

/-- A pass whose placements each pass the check when they are applied keeps the pods of enforced roles apart. -/
theorem pass_keeps_apart (specs : List WorkloadSpec) {first last : Node} {trace : List (Transition Node Entry)}
    (affine : AntiAffine first.disk) (reconciles : WorkloadController.Reconciles specs first trace last)
    (kept : ∀ transition ∈ trace, KeptApart transition) : AntiAffine last.disk := by
  obtain ⟨run,proposes⟩ := reconciles.run
  refine (run.invariant (fun node => AntiAffine node.disk)
    (fun transition => WorkloadController.Proposes transition ∧ KeptApart transition) ?_ affine ?_).2
  · rintro before entry after advances ⟨proposed,checked⟩ holds
    exact antiAffine_step advances proposed checked holds
  · intro transition member
    exact ⟨proposes transition member,kept transition member⟩

end

open Reference WorkloadController

def twoZones : Node :=
  clusterOf [workerNode workerId 1000 1073741824 "zone-a",workerNode sparesId 1000 1073741824 "zone-b"]

def oneReplica : Node := (reconciled twoZones 4 [shopSpec "replica" 1]).2

theorem second_replica_apart : AntiAffine (reconciled oneReplica 7 [shopSpec "replica" 2]).2.disk := by
  -- one evaluation, since the pass is what takes the time
  have evaluated : AntiAffine oneReplica.disk ∧ (reconcileAll oneReplica (logIdAt 7) [shopSpec "replica" 2]).isOk = true ∧
      ∀ transition ∈ (reconciled oneReplica 7 [shopSpec "replica" 2]).1, KeptApart transition := by
    decide +kernel
  obtain ⟨affine,completes,kept⟩ := evaluated
  exact pass_keeps_apart _ affine (reconciled_ok completes) kept

theorem replicas_share_node : AntiAffine twoZones.disk ∧
    Reconciles [shopSpec "replica" 2] twoZones (reconciled twoZones 4 [shopSpec "replica" 2]).1
      (reconciled twoZones 4 [shopSpec "replica" 2]).2 ∧
    ¬AntiAffine (reconciled twoZones 4 [shopSpec "replica" 2]).2.disk := by
  have evaluated : AntiAffine twoZones.disk ∧ (reconcileAll twoZones (logIdAt 4) [shopSpec "replica" 2]).isOk = true ∧
      ¬AntiAffine (reconciled twoZones 4 [shopSpec "replica" 2]).2.disk := by
    decide +kernel
  obtain ⟨affine,completes,shared⟩ := evaluated
  exact ⟨affine,reconciled_ok completes,shared⟩

end FleetosControl
