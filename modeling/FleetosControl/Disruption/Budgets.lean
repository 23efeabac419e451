import FleetosControl.Apply.Batch
import FleetosControl.Controllers.NoExecute
import FleetosControl.Disruption.DrainedNodes

/-! Disruption budgets over whole runs. Pods go for many reasons, each computed from a store that
may have passed, and only some of them ask the guard. -/
namespace FleetosControl
open KeyValue Trace Views WorkloadController

inductive Disruption where
  | drain | scaleDown | deletion | horizontal | vertical | preemption | taint | other
  deriving DecidableEq

structure DisruptionCommit [FleetosCore] where
  kind : Disruption
  entry : Entry

section
variable [FleetosCore] [Formats] {tenantId workloadId role requestId : String} {least : Nat} {server : AdminServer}
  {peer : Peer} {req : EvictNodeRequest} {commands : List AuditedCommand} {audited : AuditedCommand} {view : Node}
  {commit : DisruptionCommit}

theorem allowDisruption_congr {left right} (workloads : left .workloads = right .workloads)
    (placements : left .placements = right .placements) : allowDisruption left = allowDisruption right := by
  funext tenantId workloadId role count target
  have healthy : countPlaced left tenantId workloadId role = countPlaced right tenantId workloadId role := by
    rw [countPlaced,rolePlacements_congr placements,countPlaced]
  unfold allowDisruption getWorkloadSpec
  rw [workloads,healthy]

def Entry.taken (entry : Entry) (disk : Disk) (tenantId workloadId role : String) : List Placement :=
  entry.command.elim [] fun cmd => cmd.taken disk tenantId workloadId role

theorem drained_takes {guard : SpiffeId → AdminServer.Drain}
    (ok : server.evictNode peer requestId guard req = .ok commands) (member : audited ∈ commands) :
    audited.cmd.TakesOnly := by
  obtain ⟨_,_,⟨_,_,eviction⟩ | cordon | ⟨_,removal | freed⟩⟩ := evictNode_cases ok member
  · rw [eviction]; trivial
  · rw [cordon]; trivial
  · rw [removal]; trivial
  · rw [freed]; trivial

variable [WorkloadMessages] [Merges] [NameTypes]

/-- A forced drain is not among them; it is one of the other entries. -/
inductive DisruptionCommit.ComputedFrom (view : Node) : DisruptionCommit → Prop where
  | drain {server : AdminServer} {peer requestId} {req : EvictNodeRequest} {commands audited} {entry : Entry} :
      req.force = false →
      server.evictNode peer requestId (FleetosControl.drain (allowDisruption view.disk) view.disk) req = .ok commands →
      audited ∈ commands → entry.payload = .normal audited → ComputedFrom view ⟨.drain,entry⟩
  | scaleDown {server : AdminServer} {peer requestId req audited} {entry : Entry} : server.storage = view.disk →
      server.scaleWorkload peer requestId req = .ok audited → entry.payload = .normal audited →
      ComputedFrom view ⟨.scaleDown,entry⟩
  | deletion {server : AdminServer} {peer requestId req audited} {entry : Entry} : server.storage = view.disk →
      server.deleteWorkload peer requestId req = .ok audited → entry.payload = .normal audited →
      ComputedFrom view ⟨.deletion,entry⟩
  | horizontal {controller : HpaController} {record} {now : Int64} {clock : UInt64} {audited} {entry : Entry} :
      controller.guard = allowDisruption view.disk →
      record ∈ listWorkloads view.disk →
      (controller.evaluateWorkload record (scanRecords Placement view.disk .placements) now clock).2 = some audited →
      entry.payload = .normal audited → ComputedFrom view ⟨.horizontal,entry⟩
  | vertical {controller : VpaController} {record} {now : Int64} {audited} {entry : Entry} :
      controller.storage = view.disk → controller.guard = allowDisruption view.disk →
      record ∈ listWorkloads view.disk →
      audited ∈ (controller.evaluateWorkload record (scanRecords Placement view.disk .placements) now).2 →
      entry.payload = .normal audited → ComputedFrom view ⟨.vertical,entry⟩
  -- the victims go; the pod that takes their place is scheduled by one of the other entries
  | preemption {found pod plan audited} {entry : Entry} :
      collectPending view.disk (buildClusterState view.disk) (decodedWorkloads view.disk) = .ok found →
      (pod,plan) ∈ preemptions (buildClusterState view.disk) (decodedWorkloads view.disk)
        (unscheduled (buildClusterState view.disk) (orderPending found)) →
      audited ∈ applyPreemption pod plan → audited.cmd.TakesOnly →
      entry.payload = .normal audited → ComputedFrom view ⟨.preemption,entry⟩
  | taint {now : Int64} {audited} {entry : Entry} :
      audited ∈ NodeController.enforceNoExecuteTaints view.disk now → entry.payload = .normal audited →
      ComputedFrom view ⟨.taint,entry⟩
  | other {entry : Entry} : entry.Accepted → ComputedFrom view ⟨.other,entry⟩

theorem DisruptionCommit.ComputedFrom.takes (computed : commit.ComputedFrom view) (voluntary : commit.kind ≠ .other) :
    ∃ audited, commit.entry.payload = .normal audited ∧ audited.cmd.TakesOnly ∧ audited.cmd.Proposable := by
  cases computed with
  | drain _ ok member normal => exact ⟨_,normal,drained_takes ok member,proposed_proposable (.evictNode ok member)⟩
  | scaleDown _ accepted normal =>
    obtain ⟨_,_,_,_,_,_,_,scaled⟩ := AdminServer.scaleWorkload_proposes accepted
    refine ⟨_,normal,?_⟩
    rw [scaled]
    exact ⟨trivial,trivial⟩
  | deletion _ accepted normal =>
    refine ⟨_,normal,?_⟩
    rw [(AdminServer.deleteWorkload_proposes accepted).2]
    exact ⟨trivial,trivial⟩
  | horizontal _ _ proposed normal =>
    obtain ⟨_,_,_,_,_,_,_,rfl⟩ := HpaController.evaluateWorkload_proposes proposed
    exact ⟨_,normal,trivial,trivial⟩
  | vertical _ _ _ proposed normal =>
    obtain ⟨_,_,proposal⟩ := VpaController.evaluateWorkload_proposes proposed
    refine ⟨_,normal,?_⟩
    generalize AuditedCommand.cmd _ = cmd at proposal ⊢
    cases proposal <;> exact ⟨trivial,trivial⟩
  | preemption _ _ member only normal =>
    refine ⟨_,normal,only,?_⟩
    have placing := applyPreemption_ofPlacing _ _ _ member
    generalize AuditedCommand.cmd _ = cmd at placing ⊢
    cases placing <;> trivial
  | taint member normal =>
    refine ⟨_,normal,?_⟩
    rcases NodeController.enforceNoExecuteTaints_proposes member with ⟨_,removed⟩ | ⟨_,freed⟩
    · rw [removed]
      exact ⟨trivial,trivial⟩
    · rw [freed]
      exact ⟨trivial,trivial⟩
  | other => exact absurd rfl voluntary

theorem DisruptionCommit.ComputedFrom.proposable (computed : commit.ComputedFrom view) :
    ∀ audited, commit.entry.payload = .normal audited → audited.cmd.Proposable := by
  intro audited normal
  by_cases voluntary : commit.kind = .other
  · cases computed with
    | other accepted => exact proposed_proposable (accepted audited normal)
    | _ => cases voluntary
  · obtain ⟨committed,payload,_,proposable⟩ := computed.takes voluntary
    cases payload.symm.trans normal
    exact proposable

/-- A whole drain that meets the store it was computed from, and a workload in the form that the guard reads. -/
structure HeldByGuard (view disk : Disk) (commit : DisruptionCommit) (tenantId workloadId role : String) (least : Nat) :
    Prop where
  drains : commit.kind = .drain
  whole : ∃ nodeSvid expires, commit.entry.command = some (.evictNode nodeSvid expires)
  workloads : disk .workloads = view .workloads
  placements : disk .placements = view .placements
  form : Declares disk tenantId workloadId role least
  few : (rolePlacements disk tenantId workloadId role).length < 2^32

theorem HeldByGuard.left (held : HeldByGuard view.disk disk commit tenantId workloadId role least)
    (computed : commit.ComputedFrom view) (taken : commit.entry.taken disk tenantId workloadId role ≠ []) :
    least ≤ (rolePlacements disk tenantId workloadId role).length -
      (commit.entry.taken disk tenantId workloadId role).length := by
  obtain ⟨drains,⟨nodeSvid,expires,whole⟩,workloads,placements,form,few⟩ := held
  cases computed with
  | @drain server peer requestId req commands audited entry unforced ok member normal =>
    have command := command_normal normal
    have own : entry.taken disk tenantId workloadId role = audited.cmd.taken disk tenantId workloadId role := by
      rw [Entry.taken,command]
      rfl
    have same : audited.cmd.taken disk tenantId workloadId role = audited.cmd.taken view.disk tenantId workloadId role := by
      rw [FleetosCommand.taken,rolePlacements_congr placements,FleetosCommand.taken]
    have some : (audited.cmd.taken disk tenantId workloadId role).length ≤
        (rolePlacements disk tenantId workloadId role).length := List.length_filter_le _ _
    obtain ⟨_,_,⟨_,_,eviction⟩ | cordon | ⟨_,removal | freed⟩⟩ := evictNode_cases ok member
    · rw [own] at taken
      have asked := evictNode_asks unforced ok member eviction (same ▸ taken)
      rw [DisruptionGuard.allowed,Bool.and_eq_true,← same,← allowDisruption_congr workloads placements,
        allowDisruption_declared form] at asked
      have consents := asked.2
      split at consents
      case isTrue => cases consents
      case isFalse enough =>
        rw [UInt32.toNat_ofNat',Nat.mod_eq_of_lt few,Nat.mod_eq_of_lt (some.trans_lt few)] at enough
        rw [own]
        omega
    · rw [command,cordon] at whole
      cases whole
    · rw [command,removal] at whole
      cases whole
    · rw [command,freed] at whole
      cases whole
  | _ => cases drains

end

open Reference Manifests

def budgetPod (ordinal : UInt32) (node : SpiffeId) : Placement :=
  ⟨"shop-web-" ++ toString ordinal,"acme","shop","web",ordinal,node,⟨500,268435456⟩⟩

def placedPod (ordinal : UInt32) (node : SpiffeId) : AuditedCommand := .system (.commitPlacement (budgetPod ordinal node))

def promptly (node : Node) (earlier : List Node) (index : UInt64) (kind : Disruption) (audited : AuditedCommand) :
    Committed Node DisruptionCommit :=
  ⟨⟨node,earlier⟩,⟨node,⟨kind,⟨logIdAt index,.normal audited⟩⟩⟩,⟨takenNext node index audited,node::earlier⟩⟩

-- The first command stores the shop; its two pods are placed on two nodes.
def stored (first : AuditedCommand) : Node := takenNext (boot Disk.empty) 1 first

def onePlaced (first : AuditedCommand) : Node := takenNext (stored first) 2 (placedPod 0 hostId)

def placing (first : AuditedCommand) : List (Committed Node DisruptionCommit) :=
  [promptly (boot Disk.empty) [] 1 .other first,promptly (stored first) [boot Disk.empty] 2 .other (placedPod 0 hostId),
    promptly (onePlaced first) [stored first,boot Disk.empty] 3 .other (placedPod 1 neighbourId)]

end FleetosControl
