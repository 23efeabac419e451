import FleetosControl.Scheduler.Engine
import FleetosControl.DummyIp.Allocator
import FleetosControl.Raft.StateMachine

/-! The workload controller. A pass collects the pods that wait for a node, schedules them by
priority, preempts and allocates service addresses. -/
namespace FleetosControl
open KeyValue Trace

/-- The stable place of a pod: its workload, role and ordinal. -/
structure Slot where
  tenantId : String
  workloadId : String
  role : String
  ordinal : UInt32
  deriving DecidableEq

-- `format!("{}-{}-{}", workload_id, role, ordinal)`
def Slot.podId (slot : Slot) : String := slot.workloadId ++ "-" ++ slot.role ++ "-" ++ toString slot.ordinal

inductive ControllerError where
  | scheduler (source : SchedulerError)
  | dummyIp (source : DummyIpError)
  | raft (source : StorageError)
  deriving DecidableEq

def WorkloadSpec.priority (spec : WorkloadSpec) : Int32 := (spec.podSpec.map (·.priority)).getD 0

def WorkloadSpec.slots (spec : WorkloadSpec) : List Slot :=
  spec.replicas.toList.flatMap fun entry =>
    (List.range entry.2.toNat).map fun ordinal => ⟨spec.tenantId,spec.workloadId,entry.1,.ofNat ordinal⟩

def PendingPod.slot (pod : PendingPod) : Slot := ⟨pod.tenantId,pod.service,pod.role,pod.ordinal⟩

def ScheduledBefore (left right : PendingPod) : Prop :=
  right.priority < left.priority ∨ right.priority = left.priority ∧ textCmp left.podId right.podId ≠ .gt

instance : DecidableRel ScheduledBefore := fun _ _ => inferInstanceAs (Decidable (_ ∨ _ ∧ _))

def orderPending (pending : List PendingPod) : List PendingPod := pending.insertionSort ScheduledBefore

@[simp] theorem mem_orderPending : pod ∈ orderPending pending ↔ pod ∈ pending := List.mem_insertionSort _

-- Collecting into a map keeps the last of several specifications with one key.
def workloadPriorityMap (specs : List WorkloadSpec) (tenantId workloadId : String) : Option Int32 :=
  (specs.reverse.find? fun spec => spec.tenantId = tenantId && spec.workloadId = workloadId).map (·.priority)

section
variable [FleetosCore]

def Placement.slot (placement : Placement) : Slot :=
  ⟨placement.tenantId,placement.service,placement.role,placement.ordinal⟩

def ClusterState.placementExists (state : ClusterState) (slot : Slot) : Bool :=
  state.placements.any fun placement => placement.slot = slot

variable [Formats]

namespace OrdinalTracker

def getAssignment (storage : Disk) (slot : Slot) : Except SchedulerError (Option OrdinalAssignment) :=
  match (storage .ordinals)[ordinalKey slot.tenantId slot.workloadId slot.role slot.ordinal]? with
  | some bytes => ((fromBytes bytes).mapError .serialization).map some
  | none => .ok none

end OrdinalTracker

export OrdinalTracker (getAssignment)

namespace WorkloadController

def buildPodSpec (spec : WorkloadSpec) (slot : Slot) : PodSpec :=
  { spec.podSpec.getD {} with
    tenantId := slot.tenantId
    workloadId := slot.workloadId
    role := slot.role
    image := spec.image
    ordinal := some slot.ordinal
    podId := some slot.podId }

def podResources (podSpec : PodSpec) : ResourceSpec :=
  match podSpec.resources with
  | none => ⟨500,512 * 1024 * 1024⟩
  | some r => ⟨r.vcpus.toUInt64 * 1000,r.memoryMb.toUInt64 * 1024 * 1024⟩

def pendingPod (spec : WorkloadSpec) (slot : Slot) : PendingPod :=
  let podSpec := buildPodSpec spec slot
  { podId := slot.podId
    tenantId := spec.tenantId
    service := spec.workloadId
    role := slot.role
    ordinal := slot.ordinal
    resources := podResources podSpec
    priority := podSpec.priority
    tolerations := podSpec.tolerations }

/-- One round of the loop over slots. A slot with a record is passed over, with
or without a pod in it. -/
def pendingAt (storage : Disk) (state : ClusterState) (spec : WorkloadSpec) (slot : Slot) :
    Except SchedulerError (Option PendingPod) := do
  let existing ← getAssignment storage slot
  if (existing.any fun assignment => assignment.currentPodId.isSome) && state.placementExists slot then pure none
  else if existing.isSome then pure none
  else pure (some (pendingPod spec slot))

def desired (specs : List WorkloadSpec) : List (WorkloadSpec × Slot) :=
  specs.flatMap fun spec => spec.slots.map fun slot => (spec,slot)

def collectPending (storage : Disk) (state : ClusterState) (specs : List WorkloadSpec) :
    Except SchedulerError (List PendingPod) := do
  let found ← (desired specs).mapM fun wanted => pendingAt storage state wanted.1 wanted.2
  pure (found.filterMap id)

def scheduled (state : ClusterState) (pending : List PendingPod) : List AuditedCommand :=
  pending.flatMap fun pod =>
    match schedule pod state with
    | .ok decision => commitScheduling pod decision.nodeId
    | .error _ => []

def unscheduled (state : ClusterState) (pending : List PendingPod) : List PendingPod :=
  pending.filter fun pod => !(schedule pod state).isOk

def victimPriority (specs : List WorkloadSpec) (placement : Placement) : Int32 :=
  (workloadPriorityMap specs placement.tenantId placement.service).getD 0

def preemptions (state : ClusterState) (specs : List WorkloadSpec) (left : List PendingPod) :
    List (PendingPod × PreemptionPlan) :=
  (left.filter fun pod => 0 < pod.priority).filterMap fun pod =>
    (findPreemptionPlan pod state (victimPriority specs)).map fun plan => (pod,plan)

def applyPreemption (pod : PendingPod) (plan : PreemptionPlan) : List AuditedCommand :=
  plan.victims.flatMap (fun victim =>
    [.system (.removePlacement victim.podId),
      .system (.recordOrdinalAssignment ⟨victim.tenantId,victim.service,victim.role,victim.ordinal,none,none⟩)]) ++
    commitScheduling pod plan.nodeId

def placementProposals (storage : Disk) (specs : List WorkloadSpec) : Except ControllerError (List AuditedCommand) := do
  let state := buildClusterState storage
  let found ← (collectPending storage state specs).mapError .scheduler
  let pending := orderPending found
  let preempting := preemptions state specs (unscheduled state pending)
  pure (scheduled state pending ++ preempting.flatMap fun planned => applyPreemption planned.1 planned.2)

def serviceRoles (specs : List WorkloadSpec) : List (String × String × String) :=
  specs.flatMap fun spec => spec.replicas.keys.map fun role => (spec.tenantId,spec.workloadId,role)

/-- The fifth pass reads the store again for every service role. -/
inductive AllocatesAddresses : List (String × String × String) → Node → List (Transition Node Entry) → Node → Prop where
  | done (node : Node) : AllocatesAddresses [] node [] node
  | present {node : Node} : allocateServiceAddress node.disk tenantId workloadId role = .ok none →
      AllocatesAddresses rest node trace last →
      AllocatesAddresses ((tenantId,workloadId,role)::rest) node trace last
  | allocated {node : Node} {entry : Entry} :
      allocateServiceAddress node.disk tenantId workloadId role = .ok (some audited) →
      entry.payload = .normal audited → Advances node entry next →
      AllocatesAddresses rest next trace last →
      AllocatesAddresses ((tenantId,workloadId,role)::rest) node (⟨node,entry,next⟩::trace) last

/-- One complete pass with no other writer: every proposal is applied in turn. -/
def Reconciles (specs : List WorkloadSpec) (first : Node) (trace : List (Transition Node Entry)) (last : Node) : Prop :=
  ∃ commands middle placing allocating, placementProposals first.disk specs = .ok commands ∧
    Run Advances first placing middle ∧ placing.map (·.label.payload) = commands.map .normal ∧
    AllocatesAddresses (serviceRoles specs) middle allocating last ∧ trace = placing ++ allocating

section
def nextLogId (id : LogId) : LogId := { id with index := id.index + 1 }

def proposeAll (node : Node) (logId : LogId) :
    List AuditedCommand → Except ControllerError (List (Transition Node Entry) × Node)
  | [] => .ok ([],node)
  | audited::rest => do
    let applied ← (applyEntry node ⟨logId,.normal audited⟩).mapError .raft
    let later ← proposeAll applied.1 (nextLogId logId) rest
    pure (⟨node,⟨logId,.normal audited⟩,applied.1⟩::later.1,later.2)

def allocateServiceAddresses (node : Node) (logId : LogId) :
    List (String × String × String) → Except ControllerError (List (Transition Node Entry) × Node)
  | [] => .ok ([],node)
  | (tenantId,workloadId,role)::rest => do
    match ← (allocateServiceAddress node.disk tenantId workloadId role).mapError .dummyIp with
    | none => allocateServiceAddresses node logId rest
    | some audited =>
      let applied ← (applyEntry node ⟨logId,.normal audited⟩).mapError .raft
      let later ← allocateServiceAddresses applied.1 (nextLogId logId) rest
      pure (⟨node,⟨logId,.normal audited⟩,applied.1⟩::later.1,later.2)

def reconcileAll (node : Node) (logId : LogId) (specs : List WorkloadSpec) :
    Except ControllerError (List (Transition Node Entry) × Node) := do
  let commands ← placementProposals node.disk specs
  let placed ← proposeAll node logId commands
  let allocated ← allocateServiceAddresses placed.2 { logId with index := logId.index + .ofNat commands.length }
    (serviceRoles specs)
  pure (placed.1 ++ allocated.1,allocated.2)

variable {node last : Node} {logId : LogId} {trace : List (Transition Node Entry)}

theorem proposeAll_ok (ok : proposeAll node logId commands = .ok (trace,last)) :
    Run Advances node trace last ∧ trace.map (·.label.payload) = commands.map .normal := by
  induction commands generalizing node logId trace with
  | nil =>
    cases ok
    exact ⟨.nil _,rfl⟩
  | cons audited rest ih =>
    obtain ⟨⟨next,response⟩,applied,ok⟩ := bind_ok ok
    obtain ⟨⟨later,final⟩,proposed,ok⟩ := bind_ok ok
    cases ok
    obtain ⟨run,payloads⟩ := ih proposed
    exact ⟨.cons ⟨response,mapError_ok.mp applied⟩ run,congrArg (List.cons (EntryPayload.normal audited)) payloads⟩

theorem allocateServiceAddresses_ok (ok : allocateServiceAddresses node logId roles = .ok (trace,last)) :
    AllocatesAddresses roles node trace last := by
  induction roles generalizing node logId trace with
  | nil =>
    cases ok
    exact .done _
  | cons named rest ih =>
    obtain ⟨tenantId,workloadId,role⟩ := named
    obtain ⟨computed,allocated,ok⟩ := bind_ok ok
    cases computed with
    | none => exact .present (mapError_ok.mp allocated) (ih ok)
    | some audited =>
      obtain ⟨⟨next,response⟩,applied,ok⟩ := bind_ok ok
      obtain ⟨⟨later,final⟩,proposed,ok⟩ := bind_ok ok
      cases ok
      exact .allocated (mapError_ok.mp allocated) rfl ⟨response,mapError_ok.mp applied⟩ (ih proposed)

theorem reconcileAll_ok (ok : reconcileAll node logId specs = .ok (trace,last)) :
    Reconciles specs node trace last := by
  obtain ⟨commands,proposed,ok⟩ := bind_ok ok
  obtain ⟨⟨placing,middle⟩,placed,ok⟩ := bind_ok ok
  obtain ⟨⟨allocating,final⟩,allocated,ok⟩ := bind_ok ok
  cases ok
  obtain ⟨run,payloads⟩ := proposeAll_ok placed
  exact ⟨commands,middle,placing,allocating,proposed,run,payloads,allocateServiceAddresses_ok allocated,rfl⟩

end

inductive OfPlacing : FleetosCommand → Prop where
  | recordOrdinalAssignment (record : OrdinalAssignment) : OfPlacing (.recordOrdinalAssignment record)
  | commitPlacement (record : Placement) : OfPlacing (.commitPlacement record)
  | removePlacement (podId : String) : OfPlacing (.removePlacement podId)

inductive OfPass : FleetosCommand → Prop where
  | recordOrdinalAssignment (record : OrdinalAssignment) : OfPass (.recordOrdinalAssignment record)
  | commitPlacement (record : Placement) : OfPass (.commitPlacement record)
  | removePlacement (podId : String) : OfPass (.removePlacement podId)
  | allocateServiceAddress (block : TenantBlock) (address : ServiceAddress) : OfPass (.allocateServiceAddress block address)

variable {cmd : FleetosCommand} {specs : List WorkloadSpec} {storage : Disk} {commands : List AuditedCommand}
  {first last : Node} {trace : List (Transition Node Entry)} {roles : List (String × String × String)}

theorem OfPlacing.ofPass (placing : OfPlacing cmd) : OfPass cmd := by
  cases placing with
  | recordOrdinalAssignment record => exact .recordOrdinalAssignment record
  | commitPlacement record => exact .commitPlacement record
  | removePlacement podId => exact .removePlacement podId

theorem OfPlacing.touches (placing : OfPlacing cmd) : cmd.touches ⊆ [.ordinals,.placements] := by
  cases placing <;> simp [FleetosCommand.touches]

theorem commitScheduling_ofPlacing (pod : PendingPod) (nodeId : SpiffeId) :
    ∀ audited ∈ commitScheduling pod nodeId, OfPlacing audited.cmd := by
  intro audited member
  simp only [commitScheduling,mem_cons,not_mem_nil,or_false] at member
  rcases member with rfl | rfl
  · exact .recordOrdinalAssignment _
  · exact .commitPlacement _

theorem applyPreemption_ofPlacing (pod : PendingPod) (plan : PreemptionPlan) :
    ∀ audited ∈ applyPreemption pod plan, OfPlacing audited.cmd := by
  intro audited member
  rcases mem_append.mp member with evicted | placed
  · obtain ⟨victim,_,inside⟩ := mem_flatMap.mp evicted
    simp only [mem_cons,not_mem_nil,or_false] at inside
    rcases inside with rfl | rfl
    · exact .removePlacement _
    · exact .recordOrdinalAssignment _
  · exact commitScheduling_ofPlacing pod plan.nodeId audited placed

theorem mem_preemptions : (pod,plan) ∈ preemptions state specs left ↔
      pod ∈ left ∧ 0 < pod.priority ∧ findPreemptionPlan pod state (victimPriority specs) = some plan := by
  simp only [preemptions,mem_filterMap,mem_filter,decide_eq_true_iff,map_eq_some_iff,Prod.mk.injEq]
  constructor
  · rintro ⟨_,⟨member,positive⟩,_,found,rfl,rfl⟩
    exact ⟨member,positive,found⟩
  · rintro ⟨member,positive,found⟩
    exact ⟨pod,⟨member,positive⟩,plan,found,rfl,rfl⟩

section
variable (ok : placementProposals storage specs = .ok commands)
include ok

theorem placementProposals_ok : ∃ found, collectPending storage (buildClusterState storage) specs = .ok found ∧
      commands = scheduled (buildClusterState storage) (orderPending found) ++
        (preemptions (buildClusterState storage) specs (unscheduled (buildClusterState storage) (orderPending found))).flatMap
          fun planned => applyPreemption planned.1 planned.2 := by
  obtain ⟨found,collected,ok⟩ := bind_ok ok
  cases ok
  exact ⟨found,mapError_ok.mp collected,rfl⟩

theorem placementProposals_cases (member : audited ∈ commands) :
    (∃ pod decision, schedule pod (buildClusterState storage) = .ok decision ∧
      audited ∈ commitScheduling pod decision.nodeId) ∨
    ∃ pod plan, findPreemptionPlan pod (buildClusterState storage) (victimPriority specs) = some plan ∧
      audited ∈ applyPreemption pod plan := by
  obtain ⟨found,_,rfl⟩ := placementProposals_ok ok
  rcases mem_append.mp member with placed | preempted
  · obtain ⟨pod,_,inside⟩ := mem_flatMap.mp placed
    split at inside
    case h_1 decision chosen => exact .inl ⟨pod,decision,chosen,inside⟩
    case h_2 => cases inside
  · obtain ⟨⟨pod,plan⟩,planned,inside⟩ := mem_flatMap.mp preempted
    exact .inr ⟨pod,plan,(mem_preemptions.mp planned).2.2,inside⟩

theorem placementProposals_ofPlacing : ∀ audited ∈ commands, OfPlacing audited.cmd := by
  intro audited member
  rcases placementProposals_cases ok member with ⟨pod,decision,_,placed⟩ | ⟨pod,plan,_,preempted⟩
  · exact commitScheduling_ofPlacing _ _ audited placed
  · exact applyPreemption_ofPlacing _ _ audited preempted

end

theorem AllocatesAddresses.run (allocates : AllocatesAddresses roles first trace last) : Run Advances first trace last := by
  induction allocates with
  | done node => exact .nil node
  | present _ _ ih => exact ih
  | allocated _ _ advances _ ih => exact .cons advances ih

def Proposes (transition : Transition Node Entry) : Prop :=
  ∃ audited, transition.label.payload = .normal audited ∧ OfPass audited.cmd

theorem AllocatesAddresses.proposes (allocates : AllocatesAddresses roles first trace last) :
    ∀ transition ∈ trace, Proposes transition := by
  induction allocates with
  | done node => simp
  | present _ _ ih => exact ih
  | allocated computed payload _ _ ih =>
    intro transition member
    rcases mem_cons.mp member with rfl | later
    · obtain ⟨block,address,rfl,_⟩ := allocateServiceAddress_some computed
      exact ⟨_,payload,.allocateServiceAddress block address⟩
    · exact ih transition later

theorem Reconciles.run (reconciles : Reconciles specs first trace last) :
    Run Advances first trace last ∧ ∀ transition ∈ trace, Proposes transition := by
  obtain ⟨commands,middle,placing,allocating,proposed,run,payloads,allocates,rfl⟩ := reconciles
  refine ⟨run.append allocates.run,?_⟩
  intro transition member
  rcases mem_append.mp member with placed | allocated
  · have payload : transition.label.payload ∈ commands.map EntryPayload.normal := by
      rw [← payloads]
      exact List.mem_map_of_mem placed
    obtain ⟨audited,inside,named⟩ := mem_map.mp payload
    exact ⟨audited,named.symm,(placementProposals_ofPlacing proposed audited inside).ofPass⟩
  · exact allocates.proposes transition allocated

def written (entry : Entry) : Option Placement :=
  match entry.payload with
  | .normal ⟨.commitPlacement record,_⟩ => some record
  | _ => none

theorem pass_step (advances : Advances before entry after) (proposes : Proposes ⟨before,entry,after⟩) :
    after.disk .nodes = before.disk .nodes ∧ after.disk .nodeTaints = before.disk .nodeTaints ∧
      ((∃ record, written entry = some record ∧
          after.disk .placements = (before.disk .placements).insert (asBytes record.podId) (toAllocvec record)) ∨
        (∃ key, after.disk .placements = (before.disk .placements).erase key) ∨
        after.disk .placements = before.disk .placements) := by
  obtain ⟨⟨cmd,audit⟩,payload,ofPass⟩ := proposes
  have applies : AppliesCommand before cmd after := ⟨entry,_,payload,rfl,advances⟩
  obtain ⟨writes,kind,ok,contents⟩ := applies.commits
  have placements := contents .placements rfl
  refine ⟨applies.frame rfl ?_,applies.frame rfl ?_,?_⟩
  · cases ofPass <;> simp [touches]
  · cases ofPass <;> simp [touches]
  · cases ofPass with
    | recordOrdinalAssignment | allocateServiceAddress =>
      exact .inr (.inr (applies.frame rfl (by simp [touches])))
    | commitPlacement record =>
      cases ok
      refine .inl ⟨record,by rw [written,payload],?_⟩
      rw [placements]
      simp [put,perform,Write.on]
    | removePlacement podId =>
      cases ok
      refine .inr (.inl ⟨asBytes podId,?_⟩)
      rw [placements]
      simp [perform,Write.on]

end WorkloadController

end

open Reference WorkloadController

def workerId : Identity := ⟨"spiffe://fleet.example.internal/ns/system/node/worker",by decide⟩

def sparesId : Identity := ⟨"spiffe://fleet.example.internal/ns/system/node/spares",by decide⟩

def workerNode (id : Identity) (cpuMillicores memoryBytes : UInt64) (failureDomain : String) : NodeRecord :=
  ⟨id.1,0,.active,true,0,0,cpuMillicores,memoryBytes,failureDomain⟩

def clusterOf (nodes : List NodeRecord) : Node :=
  (apply (boot Disk.empty) (commandAt 1 (.createTenant ⟨"acme",0,[]⟩ ⟨"acme",0xF0000000,16,0⟩) ::
    nodes.zipIdx.map fun node => commandAt (.ofNat (node.2 + 2)) (.registerNode node.1))).1

def shopSpec (role : String) (count : UInt32) : WorkloadSpec :=
  { tenantId := "acme", workloadId := "shop", image := "shop:v1",
    replicas := (∅ : Std.ExtTreeMap String UInt32 compare).insert role count }

def reconciled (node : Node) (index : UInt64) (specs : List WorkloadSpec) : List (Transition Node Entry) × Node :=
  ((reconcileAll node (logIdAt index) specs).toOption).getD ([],node)

theorem reconciled_ok {index : UInt64} (ok : (reconcileAll node (logIdAt index) specs).isOk = true) :
    Reconciles specs node (reconciled node index specs).1 (reconciled node index specs).2 := by
  unfold reconciled
  cases outcome : reconcileAll node (logIdAt index) specs with
  | error e => simp [outcome,Except.isOk,Except.toBool] at ok
  | ok result => exact reconcileAll_ok outcome

end FleetosControl
