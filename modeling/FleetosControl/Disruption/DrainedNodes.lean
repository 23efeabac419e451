import FleetosControl.Controllers.SlotAgreement
import FleetosControl.Scheduler.JoinedNodes

/-! Nodes after an eviction that was not forced. With consent no role falls below its minimum, and a
refusal takes the surplus and cordons the node. -/
namespace FleetosControl
open KeyValue Trace Sequences

section
variable [FleetosCore] [Formats] {placements : List Placement}

section
variable {disk : Disk}

theorem mem_rolePlacements : placement ∈ rolePlacements disk tenantId workloadId role ↔
      placement ∈ scanRecords Placement disk .placements ∧ placement.group = (tenantId,workloadId,role) := by
  simp [rolePlacements,mem_filter,Placement.group,and_assoc]

theorem rolePlacements_nodup (filed : PlacementsFiled disk) (tenantId workloadId role : String) :
    (rolePlacements disk tenantId workloadId role).Nodup := (placements_nodup filed).filter _

def OrdinalsBelow (disk : Disk) : Prop :=
  ∀ placement ∈ scanRecords Placement disk .placements, ∃ replicas : UInt32, placement.ordinal < replicas

theorem rolePlacements_few (filed : PlacementsFiled disk) (keyed : Keyed disk) (numbered : OrdinalsBelow disk)
    (tenantId workloadId role : String) : (rolePlacements disk tenantId workloadId role).length < 2^32 := by
  have named : ∀ placement ∈ rolePlacements disk tenantId workloadId role,
      placement ∈ scanRecords Placement disk .placements ∧
        placement.podId = (⟨tenantId,workloadId,role,placement.ordinal⟩ : Slot).podId := by
    intro placement member
    obtain ⟨listed,own⟩ := mem_rolePlacements.mp member
    obtain ⟨key,bytes,stored,decoded⟩ := mem_scanRecords.mp listed
    cases own
    exact ⟨listed,(keyed key bytes placement stored decoded).2⟩
  have distinct : ((rolePlacements disk tenantId workloadId role).map (·.ordinal.toNat)).Nodup := by
    refine (rolePlacements_nodup filed tenantId workloadId role).map_on ?_
    intro left one right other same
    obtain ⟨listed,name⟩ := named left one
    obtain ⟨also,again⟩ := named right other
    refine filed_podId filed listed also ?_
    rw [name,again,UInt32.toNat.inj same]
  have below : (rolePlacements disk tenantId workloadId role).map (·.ordinal.toNat) ⊆ List.range (2^32 - 1) := by
    intro number member
    obtain ⟨placement,inside,rfl⟩ := mem_map.mp member
    obtain ⟨replicas,less⟩ := numbered placement (named placement inside).1
    have bound := replicas.toNat_lt
    have under := UInt32.lt_iff_toNat_lt.mp less
    exact List.mem_range.mpr (by omega)
  have count := (distinct.subperm below).length_le
  rw [List.length_map,List.length_range] at count
  omega

end

theorem placementProposals_number {storage specs commands}
    (ok : WorkloadController.placementProposals storage specs = .ok commands) {audited}
    (member : audited ∈ commands) {record} (placed : audited.cmd = .commitPlacement record) :
    record.podId = record.slot.podId ∧ ∃ replicas : UInt32, record.ordinal < replicas := by
  obtain ⟨found,collected,rfl⟩ := WorkloadController.placementProposals_ok ok
  have commits : ∀ pod ∈ orderPending found, ∀ nodeId, audited ∈ commitScheduling pod nodeId →
      record.podId = record.slot.podId ∧ ∃ replicas : UInt32, record.ordinal < replicas := by
    intro pod pending nodeId inside
    obtain ⟨spec,_,slot,listed,_,rfl⟩ := (collectPending_ok collected pod).mp (mem_orderPending.mp pending)
    obtain ⟨_,_,replicas,_,below⟩ := mem_slots.mp listed
    simp only [commitScheduling,mem_cons,not_mem_nil,or_false] at inside
    rcases inside with rfl | rfl
    · cases placed
    · cases placed
      exact ⟨(congrArg Slot.podId (pendingPod_slot listed)).symm,replicas,below⟩
  rcases mem_append.mp member with scheduled | preempted
  · obtain ⟨pod,pending,inside⟩ := mem_flatMap.mp scheduled
    split at inside
    case h_1 decision _ => exact commits pod pending _ inside
    case h_2 => cases inside
  · obtain ⟨⟨pod,plan⟩,planned,inside⟩ := mem_flatMap.mp preempted
    rcases mem_append.mp inside with removal | last
    · obtain ⟨victim,_,within⟩ := mem_flatMap.mp removal
      simp only [mem_cons,not_mem_nil,or_false] at within
      rcases within with rfl | rfl <;> cases placed
    · have left := (WorkloadController.mem_preemptions.mp planned).1
      exact commits pod (List.mem_of_mem_filter left) _ last

section
variable [Merges]

def Entry.NumbersPods (entry : Entry) : Prop :=
  entry.NamesPods ∧ ∀ audited record, entry.payload = .normal audited → audited.cmd = .commitPlacement record →
    ∃ replicas : UInt32, record.ordinal < replicas

theorem numbered_step (advances : Advances before entry after) (numbers : entry.NumbersPods)
    (numbered : OrdinalsBelow before.disk) : OrdinalsBelow after.disk := by
  intro placement listed
  obtain ⟨key,bytes,stored,decoded⟩ := mem_scanRecords.mp listed
  rcases advances.placement numbers.1.1 stored decoded with earlier | ⟨audited,normal,_,placed | ⟨found,there,same,_⟩⟩
  · exact numbered placement (mem_scanRecords.mpr ⟨key,bytes,earlier,decoded⟩)
  · exact numbers.2 audited placement normal placed
  · rw [same]
    exact numbered found there

structure InOrder (disk : Disk) : Prop where
  filed : Every Filed disk
  keyed : Keyed disk
  numbered : OrdinalsBelow disk
  nodes : NodesFiled disk

theorem inOrder_of_run (run : Run Advances (boot Disk.empty) trace node)
    (numbers : ∀ transition ∈ trace, transition.label.NumbersPods) : InOrder node.disk := by
  refine (run.invariant (fun node => InOrder node.disk) (fun transition => transition.label.NumbersPods) ?_ ?_ numbers).2
  · intro before entry after advances numbers held
    exact ⟨advances_filed advances numbers.1.1 held.filed,keyed_step advances numbers.1 held.keyed,
      numbered_step advances numbers held.numbered,advances_nodesFiled advances held.nodes⟩
  · refine ⟨every_empty _,?_,?_,?_⟩
    · intro key bytes placement stored
      simp [boot,Disk.empty] at stored
    · intro placement listed
      obtain ⟨key,bytes,stored,_⟩ := mem_scanRecords.mp listed
      simp [boot,Disk.empty] at stored
    · intro key bytes record stored
      simp [boot,Disk.empty] at stored

end

section
variable {before after : Node} {cmds : List FleetosCommand} (executes : Executes AppliesCommand before cmds after)
include executes

theorem executes_frame {keyspace : Keyspace} (inside : keyspace.application = true)
    (untouched : ∀ cmd ∈ cmds, keyspace ∉ cmd.touches) : after.disk keyspace = before.disk keyspace := by
  have step : ∀ state cmd next, AppliesCommand state cmd next → keyspace ∉ cmd.touches →
      state.disk keyspace = before.disk keyspace → next.disk keyspace = before.disk keyspace :=
    fun state cmd next applies apart same => (applies.frame inside apart).trans same
  exact Executes.keeps step executes untouched rfl

theorem executes_left [Merges] (only : ∀ cmd ∈ cmds, cmd.TakesOnly ∧ cmd.Proposable) (filed : Every Filed before.disk) :
    scanRecords Placement after.disk .placements =
      (scanRecords Placement before.disk .placements).filter fun placement => !cmds.any (·.hits placement) := by
  induction executes with
  | nil => simp
  | @cons state next last command rest applies later ih =>
    obtain ⟨takes,proposable⟩ := only command mem_cons_self
    obtain ⟨writes,kind,ok,same⟩ := applies.commits
    rw [ih (fun cmd member => only cmd (mem_cons_of_mem _ member)) (applies_filed _ _ _ applies proposable filed),
      scanRecords_congr (same .placements rfl),takesOnly_left filed takes ok,List.filter_filter]
    simp [Bool.and_comm]

theorem executes_placed [Merges] (only : ∀ cmd ∈ cmds, cmd.TakesOnly ∧ cmd.Proposable) (filed : Every Filed before.disk)
    (tenantId workloadId role : String) :
    (rolePlacements after.disk tenantId workloadId role).length +
      ((rolePlacements before.disk tenantId workloadId role).filter fun placement => cmds.any (·.hits placement)).length =
        (rolePlacements before.disk tenantId workloadId role).length := by
  have left : rolePlacements after.disk tenantId workloadId role =
      (rolePlacements before.disk tenantId workloadId role).filter fun placement => !cmds.any (·.hits placement) := by
    rw [rolePlacements,executes_left executes only filed,rolePlacements,List.filter_comm]
  rw [left,Nat.add_comm]
  exact (List.length_eq_length_filter_add _).symm

theorem executes_nodesFiled (filed : NodesFiled before.disk) : NodesFiled after.disk := by
  have step : ∀ state cmd next, AppliesCommand state cmd next → True → NodesFiled state.disk → NodesFiled next.disk := by
    rintro state cmd next ⟨entry,audited,_,_,advances⟩ _ held
    exact advances_nodesFiled advances held
  exact Executes.keeps step executes (fun _ _ => trivial) filed

end

section
variable [NameTypes] {guard : DisruptionGuard} {storage : Disk} {node : SpiffeId} {group : PodGroup}
  {placement : Placement}

def groupOn (storage : Disk) (node : SpiffeId) (group : PodGroup) : List Placement :=
  (getPlacementsForNode storage node).filter fun placement => placement.group = group

theorem groupOn_eq (storage : Disk) (node : SpiffeId) (tenantId workloadId role : String) :
    groupOn storage node (tenantId,workloadId,role) =
      (rolePlacements storage tenantId workloadId role).filter fun placement => placement.nodeId = node := by
  rw [groupOn,getPlacementsForNode,List.filter_comm,rolePlacements]
  congr 1
  apply List.filter_congr
  intro placement _
  simp [Placement.group,Bool.and_assoc]

def drainedOf (guard : DisruptionGuard) (storage : Disk) (node : SpiffeId) (group : PodGroup) : List Placement :=
  (drainGroup guard group (groupOn storage node group)).getD []

theorem drainGroup_sublist : ((drainGroup guard group members).getD []).Sublist members := by
  unfold drainGroup
  simp only
  split
  · split
    · exact List.nil_sublist _
    · exact List.take_sublist _ _
  · exact List.nil_sublist _

theorem mem_drainedOf (inside : placement ∈ drainedOf guard storage node group) :
    placement ∈ scanRecords Placement storage .placements ∧ placement.nodeId = node ∧ placement.group = group := by
  obtain ⟨hosted,own⟩ := mem_filter.mp (drainGroup_sublist.subset inside)
  obtain ⟨listed,here⟩ := mem_filter.mp hosted
  exact ⟨listed,of_decide_eq_true here,of_decide_eq_true own⟩

theorem mem_drain (cut : drain guard storage node = .partialEvictions placements) :
    placement ∈ placements ↔ placement ∈ drainedOf guard storage node placement.group := by
  unfold drain at cut
  simp only at cut
  split at cut
  case isTrue => cases cut
  case isFalse =>
    cases cut
    rw [List.mem_flatten]
    constructor
    · rintro ⟨taken,listed,inside⟩
      obtain ⟨_,made,rfl⟩ := mem_filterMap.mp listed
      obtain ⟨⟨group,members⟩,grouped,verdict⟩ := mem_map.mp made
      obtain ⟨_,rfl⟩ := mem_podGroups.mp grouped
      have member := drainGroup_sublist.subset (by rw [verdict]; exact inside)
      have own : placement.group = group := of_decide_eq_true (mem_filter.mp member).2
      subst own
      rw [drainedOf,groupOn,verdict]
      exact inside
    · intro inside
      have member := drainGroup_sublist.subset inside
      obtain ⟨hosted,_⟩ := mem_filter.mp member
      have grouped := mem_podGroups.mpr ⟨⟨placement,hosted,rfl⟩,rfl⟩
      unfold drainedOf at inside
      cases verdict : drainGroup guard placement.group (groupOn storage node placement.group) with
      | none => simp [verdict] at inside
      | some taken =>
        rw [verdict] at inside
        exact ⟨taken,mem_filterMap.mpr ⟨some taken,mem_map.mpr ⟨_,grouped,verdict⟩,rfl⟩,inside⟩

end

section
variable {storage : Disk} {tenantId workloadId role : String} {pods : Nat}

def Declares (storage : Disk) (tenantId workloadId role : String) (pods : Nat) : Prop :=
  ∃ raw spec, getWorkloadSpec storage tenantId workloadId = some raw ∧ decodeWorkloadSpec raw = .ok spec ∧
    spec.minAvailable role = some pods

theorem allowDisruption_declared (declares : Declares storage tenantId workloadId role pods) (count : UInt32)
    (target : DisruptionTarget) : allowDisruption storage tenantId workloadId role count target =
      if (rolePlacements storage tenantId workloadId role).length % 2^32 - count.toNat < pods then
        .error ⟨.ofNat pods,countPlaced storage tenantId workloadId role,count,false⟩
      else .ok () := by
  obtain ⟨raw,spec,stored,decoded,resolved⟩ := declares
  obtain ⟨budget,found,rest⟩ := Option.bind_eq_some_iff.mp resolved
  obtain ⟨policy,present,minimum⟩ := Option.bind_eq_some_iff.mp rest
  have machine := resolveMinAvailable_toNat budget (spec.desired role)
  rw [present,Option.bind_some,minimum] at machine
  obtain ⟨least,resolves,same⟩ := map_eq_some_iff.mp machine
  have left : (saturatingSub32 (countPlaced storage tenantId workloadId role) count).toNat =
      (rolePlacements storage tenantId workloadId role).length % 2^32 - count.toNat := by
    rw [saturatingSub32_toNat,countPlaced,UInt32.toNat_ofNat']
  subst same
  unfold allowDisruption
  unfold WorkloadSpec.desired at resolves
  simp only [stored,decoded,found,present,resolves,Option.isNone_some,UInt32.lt_iff_toNat_lt,left,UInt32.ofNat_toNat,
    Bool.false_eq_true,if_false]

theorem Declares.lt (declares : Declares storage tenantId workloadId role pods) : pods < 2^32 := by
  obtain ⟨raw,spec,_,_,resolved⟩ := declares
  have small := minAvailable_lt spec role
  rw [resolved] at small
  exact small

section
variable [NameTypes] {node : SpiffeId}

def Denied (storage : Disk) (node : SpiffeId) (tenantId workloadId role : String) : Prop :=
  NameTypes.isTenantId tenantId = true ∧ NameTypes.isWorkloadRole role = true ∧
    (allowDisruption storage tenantId workloadId role (.ofNat (groupOn storage node (tenantId,workloadId,role)).length)
      .eviction).isOk = false

theorem drainedOf_denied (declares : Declares storage tenantId workloadId role pods)
    (denied : Denied storage node tenantId workloadId role) :
    (drainedOf (allowDisruption storage) storage node (tenantId,workloadId,role)).length =
      min ((groupOn storage node (tenantId,workloadId,role)).length % 2^32)
        ((rolePlacements storage tenantId workloadId role).length % 2^32 - pods) := by
  obtain ⟨tenant,typed,refused⟩ := denied
  have machine : (UInt32.ofNat pods).toNat = pods := by
    rw [UInt32.toNat_ofNat']
    exact Nat.mod_eq_of_lt declares.lt
  have placed : (countPlaced storage tenantId workloadId role).toNat =
      (rolePlacements storage tenantId workloadId role).length % 2^32 := by rw [countPlaced,UInt32.toNat_ofNat']
  rw [allowDisruption_declared declares] at refused
  split at refused
  case isFalse => cases refused
  case isTrue below =>
    have answer := allowDisruption_declared declares (.ofNat (groupOn storage node (tenantId,workloadId,role)).length) .eviction
    rw [if_pos below] at answer
    have verdict : drainedOf (allowDisruption storage) storage node (tenantId,workloadId,role) =
        (groupOn storage node (tenantId,workloadId,role)).take
        (min (.ofNat (groupOn storage node (tenantId,workloadId,role)).length)
          (saturatingSub32 (countPlaced storage tenantId workloadId role) (.ofNat pods)) : UInt32).toNat := by
      simp only [drainedOf,drainGroup,tenant,typed,Bool.and_self,if_true,answer,Option.getD_some]
    have smaller := Nat.mod_le (groupOn storage node (tenantId,workloadId,role)).length (2^32)
    rw [verdict,List.length_take,UInt32.toNat_min,saturatingSub32_toNat,machine,placed,UInt32.toNat_ofNat']
    omega

theorem drainedOf_allowed (allowed : ¬Denied storage node tenantId workloadId role) :
    drainedOf (allowDisruption storage) storage node (tenantId,workloadId,role) = [] := by
  unfold drainedOf drainGroup
  simp only
  split
  case isFalse => rfl
  case isTrue typed =>
    rw [Bool.and_eq_true] at typed
    cases answer : allowDisruption storage tenantId workloadId role
        (.ofNat (groupOn storage node (tenantId,workloadId,role)).length) .eviction with
    | ok => rfl
    | error refusal => exact absurd ⟨typed.1,typed.2,by rw [answer]; rfl⟩ allowed

theorem drainedOf_le (declares : Declares storage tenantId workloadId role pods)
    (enough : pods ≤ (rolePlacements storage tenantId workloadId role).length) :
    pods + (drainedOf (allowDisruption storage) storage node (tenantId,workloadId,role)).length ≤
      (rolePlacements storage tenantId workloadId role).length := by
  by_cases denied : Denied storage node tenantId workloadId role
  · rw [drainedOf_denied declares denied]
    omega
  · rw [drainedOf_allowed denied]
    exact enough

theorem allAllowed_leaves (whole : drain (allowDisruption storage) storage node = .allAllowed)
    (declares : Declares storage tenantId workloadId role pods)
    (hosted : groupOn storage node (tenantId,workloadId,role) ≠ []) :
    pods ≤ (rolePlacements storage tenantId workloadId role).length % 2^32 -
      (groupOn storage node (tenantId,workloadId,role)).length % 2^32 := by
  obtain ⟨placement,inside⟩ := List.exists_mem_of_ne_nil _ hosted
  obtain ⟨placed,own⟩ := mem_filter.mp inside
  have group : placement.group = (tenantId,workloadId,role) := of_decide_eq_true own
  have consent := drain_allAllowed whole placed
  rw [group] at consent
  cases group
  have agreed := (Bool.and_eq_true_iff.mp consent).2
  rw [allowDisruption_declared declares,UInt32.toNat_ofNat'] at agreed
  split at agreed
  case isTrue => cases agreed
  case isFalse least => exact Nat.not_lt.mp least

end

end

def removals (placements : List Placement) : List FleetosCommand :=
  placements.flatMap fun placement =>
    [.removePlacement placement.podId,.recordOrdinalAssignment (freedOrdinal placement)]

def drainCommands (nodeId : String) (placements : List Placement) : List FleetosCommand :=
  .setNodeSchedulable nodeId false::removals placements

theorem mem_removals (member : cmd ∈ removals placements) :
    ∃ placement : Placement, cmd = .removePlacement placement.podId ∨
      cmd = .recordOrdinalAssignment (freedOrdinal placement) := by
  obtain ⟨placement,_,inside⟩ := mem_flatMap.mp member
  simp only [mem_cons,not_mem_nil,or_false] at inside
  exact ⟨placement,inside⟩

theorem drainCommands_hits : ((drainCommands nodeId placements).any fun cmd => cmd.hits placement) = true ↔
      ∃ gone ∈ placements, placement.podId = gone.podId := by
  simp [drainCommands,removals,List.any_flatMap,FleetosCommand.hits]

theorem evictNode_commands {server : AdminServer} {guard : SpiffeId → AdminServer.Drain} {req : EvictNodeRequest}
    (unforced : req.force = false) (ok : server.evictNode peer requestId guard req = .ok commands) :
    ∃ node, parse req.nodeSvid = .ok node ∧
      ((guard node = .allAllowed ∧ ∃ expires, commands.map (·.cmd) = [.evictNode req.nodeSvid expires]) ∨
        ∃ placements, guard node = .partialEvictions placements ∧
          commands.map (·.cmd) = drainCommands req.nodeSvid placements) := by
  obtain ⟨_,_,ok⟩ := bind_ok ok
  obtain ⟨_,_,ok⟩ := bind_ok ok
  obtain ⟨node,parsed,ok⟩ := bind_ok ok
  refine ⟨node,parseArgument_ok parsed,?_⟩
  rw [unforced] at ok
  split at ok
  case h_1 whole =>
    cases ok
    exact .inl ⟨whole,_,rfl⟩
  case h_2 placements cut =>
    cases ok
    refine .inr ⟨placements,cut,?_⟩
    simp [drainCommands,removals,List.map_flatMap]

theorem drainCommands_only [Merges] : ∀ cmd ∈ drainCommands nodeId placements, cmd.TakesOnly ∧ cmd.Proposable := by
  intro cmd member
  rcases mem_cons.mp member with rfl | drained
  · exact ⟨trivial,trivial⟩
  · obtain ⟨placement,rfl | rfl⟩ := mem_removals drained <;> exact ⟨trivial,trivial⟩

theorem drainCommands_cordon (executes : Executes AppliesCommand before (drainCommands nodeId placements) after) :
    ∃ record, readRecord NodeRecord after.disk .nodes (asBytes nodeId) = .ok (some record) ∧ record.schedulable = false := by
  obtain _ | ⟨cordons,rest⟩ := executes
  obtain ⟨writes,kind,ok,same⟩ := cordons.commits
  obtain ⟨record,rfl,flag,_⟩ := setNodeSchedulable_ok ok
  have apart : ∀ cmd ∈ removals placements, Keyspace.nodes ∉ cmd.touches := by
    intro cmd member
    obtain ⟨placement,rfl | rfl⟩ := mem_removals member <;> simp [touches]
  have kept := executes_frame rest rfl apart
  refine ⟨record,readRecord_of_lookup ?_,flag⟩
  rw [kept,same .nodes rfl,commit_put_nodes]
  exact insert_eq_some.mpr (.inl ⟨rfl,rfl⟩)

section
variable [NameTypes] {nodeId : String} {placements : List Placement}

section
variable {disk : Disk} {node : SpiffeId} {placements : List Placement}
  (filed : PlacementsFiled disk) (cut : drain (allowDisruption disk) disk node = .partialEvictions placements)
include filed cut

theorem drainCommands_gone (placed : placement ∈ scanRecords Placement disk .placements) :
    ((drainCommands nodeId placements).any fun cmd => cmd.hits placement) = true ↔
      placement ∈ drainedOf (allowDisruption disk) disk node placement.group := by
  rw [drainCommands_hits,← mem_drain cut]
  constructor
  · rintro ⟨gone,inside,same⟩
    have listed := (mem_drainedOf ((mem_drain cut).mp inside)).1
    rw [filed_podId filed placed listed same]
    exact inside
  · intro inside
    exact ⟨placement,inside,rfl⟩

theorem drained_count (nodeId tenantId workloadId role : String) :
    ((rolePlacements disk tenantId workloadId role).filter fun placement =>
      (drainCommands nodeId placements).any (·.hits placement)).length =
        (drainedOf (allowDisruption disk) disk node (tenantId,workloadId,role)).length := by
  have distinct := (rolePlacements_nodup filed tenantId workloadId role).filter
    fun placement => (drainCommands nodeId placements).any (·.hits placement)
  have gone : (drainedOf (allowDisruption disk) disk node (tenantId,workloadId,role)).Nodup :=
    drainGroup_sublist.nodup (((placements_nodup filed).filter _).filter _)
  refine List.Perm.length_eq ((List.perm_ext_iff_of_nodup distinct gone).mpr ?_)
  intro placement
  rw [mem_filter,mem_rolePlacements]
  constructor
  · rintro ⟨⟨placed,own⟩,hit⟩
    rw [← own]
    exact (drainCommands_gone filed cut placed).mp hit
  · intro inside
    obtain ⟨placed,_,own⟩ := mem_drainedOf inside
    rw [← own] at inside
    exact ⟨⟨placed,own⟩,(drainCommands_gone filed cut placed).mpr inside⟩

end

structure PartlyDrained (before after : Disk) (nodeId : String) (node : SpiffeId) : Prop where
  /-- A role that the guard has denied loses its pods on the node as far as its surplus goes. -/
  surplus : ∀ (tenantId workloadId role : String) (pods : Nat), Declares before tenantId workloadId role pods →
    Denied before node tenantId workloadId role → (rolePlacements after tenantId workloadId role).length +
        min (groupOn before node (tenantId,workloadId,role)).length
          ((rolePlacements before tenantId workloadId role).length - pods) =
            (rolePlacements before tenantId workloadId role).length
  cordoned : ∃ record, readRecord NodeRecord after .nodes (asBytes nodeId) = .ok (some record) ∧ record.schedulable = false
  /-- The nodes that the scheduler may choose have records of other names. -/
  closed : ∀ other ∈ (buildClusterState after).schedulableNodes, ∃ record ∈ scanRecords NodeRecord after .nodes,
    record.nodeId ≠ nodeId ∧ parse record.nodeId = .ok other.nodeId
  elsewhere : ∀ placement : Placement, placement.nodeId ≠ node →
    (placement ∈ scanRecords Placement after .placements ↔ placement ∈ scanRecords Placement before .placements)

section
variable [Merges] {before after : Node} {nodeId tenantId workloadId role : String} {node : SpiffeId}
  (order : InOrder before.disk) {placements : List Placement} {pods : Nat}

include order

theorem partial_drain (cut : drain (allowDisruption before.disk) before.disk node = .partialEvictions placements)
    (executes : Executes AppliesCommand before (drainCommands nodeId placements) after) :
    PartlyDrained before.disk after.disk nodeId node := by
  have filed : PlacementsFiled before.disk := order.filed .placements
  have only : ∀ cmd ∈ drainCommands nodeId placements, cmd.TakesOnly ∧ cmd.Proposable := drainCommands_only
  obtain ⟨record,read,flag⟩ := drainCommands_cordon executes
  refine ⟨?_,⟨record,read,flag⟩,?_,?_⟩
  · intro tenantId workloadId role pods declares denied
    have placed := executes_placed executes only order.filed tenantId workloadId role
    have few := rolePlacements_few filed order.keyed order.numbered tenantId workloadId role
    have hosted := List.length_filter_le (fun placement : Placement => decide (placement.nodeId = node))
      (rolePlacements before.disk tenantId workloadId role)
    rw [drained_count filed cut,drainedOf_denied declares denied,groupOn_eq,Nat.mod_eq_of_lt few,
      Nat.mod_eq_of_lt (hosted.trans_lt few)] at placed
    rw [groupOn_eq]
    exact placed
  · intro other listed
    obtain ⟨shown,scanned,apart,_,parsed⟩ := schedulable_elsewhere (executes_nodesFiled executes order.nodes) read
      (by simp [flag]) other listed
    exact ⟨shown,scanned,apart,parsed⟩
  · intro placement apart
    rw [executes_left executes only order.filed,mem_filter]
    refine ⟨And.left,fun placed => ⟨placed,?_⟩⟩
    rw [Bool.not_eq_true',← Bool.not_eq_true,drainCommands_gone filed cut placed]
    exact fun gone => apart (mem_drainedOf gone).2.1

theorem full_eviction {expires : Int64} (parsed : parse nodeId = .ok node)
    (whole : drain (allowDisruption before.disk) before.disk node = .allAllowed)
    (executes : Executes AppliesCommand before [.evictNode nodeId expires] after)
    (declares : Declares before.disk tenantId workloadId role pods)
    (enough : pods ≤ (rolePlacements before.disk tenantId workloadId role).length) :
    pods ≤ (rolePlacements after.disk tenantId workloadId role).length := by
  have placed := executes_placed executes (by simp [FleetosCommand.TakesOnly,FleetosCommand.Proposable]) order.filed
    tenantId workloadId role
  have taken : ((rolePlacements before.disk tenantId workloadId role).filter fun placement =>
      [FleetosCommand.evictNode nodeId expires].any (·.hits placement)) =
        groupOn before.disk node (tenantId,workloadId,role) := by
    simp only [List.any_cons,List.any_nil,Bool.or_false]
    exact evictNode_taken before.disk parsed expires tenantId workloadId role
  rw [taken] at placed
  by_cases none : groupOn before.disk node (tenantId,workloadId,role) = []
  · rw [none,List.length_nil] at placed
    omega
  · have least := allAllowed_leaves whole declares none
    omega

theorem partial_drain_keeps (cut : drain (allowDisruption before.disk) before.disk node = .partialEvictions placements)
    (executes : Executes AppliesCommand before (drainCommands nodeId placements) after)
    (declares : Declares before.disk tenantId workloadId role pods)
    (enough : pods ≤ (rolePlacements before.disk tenantId workloadId role).length) :
    pods ≤ (rolePlacements after.disk tenantId workloadId role).length := by
  have placed := executes_placed executes drainCommands_only order.filed tenantId workloadId role
  rw [drained_count (order.filed .placements) cut] at placed
  have least := @drainedOf_le _ _ before.disk tenantId workloadId role pods _ node declares enough
  omega

end

/-- The node is evicted as a whole, or drained as far as the refusals leave room. -/
theorem unforced_eviction_keeps_minimum [Merges] {trace : List (Transition Node Entry)} {before after : Node}
    (run : Run Advances (boot Disk.empty) trace before) (numbers : ∀ transition ∈ trace, transition.label.NumbersPods)
    {server : AdminServer} (current : server.storage = before.disk) {peer : Peer} {requestId : String}
    {req : EvictNodeRequest} {commands : List AuditedCommand} (unforced : req.force = false)
    (ok : server.evictNode peer requestId (drain (allowDisruption server.storage) server.storage) req = .ok commands)
    (alone : Executes AppliesCommand before (commands.map (·.cmd)) after) :
    ∃ node, parse req.nodeSvid = .ok node ∧
      (∀ (tenantId workloadId role : String) (pods : Nat), Declares before.disk tenantId workloadId role pods →
        pods ≤ (rolePlacements before.disk tenantId workloadId role).length →
          pods ≤ (rolePlacements after.disk tenantId workloadId role).length) ∧
      ((∃ expires, commands.map (·.cmd) = [.evictNode req.nodeSvid expires]) ∨
        PartlyDrained before.disk after.disk req.nodeSvid node) := by
  have order := inOrder_of_run run numbers
  rw [current] at ok
  obtain ⟨node,parsed,⟨whole,expires,evicts⟩ | ⟨placements,cut,drains⟩⟩ := evictNode_commands unforced ok
  · refine ⟨node,parsed,?_,.inl ⟨expires,evicts⟩⟩
    rw [evicts] at alone
    intro tenantId workloadId role pods declares enough
    exact full_eviction order parsed whole alone declares enough
  · rw [drains] at alone
    refine ⟨node,parsed,?_,.inr (partial_drain order cut alone)⟩
    intro tenantId workloadId role pods declares enough
    exact partial_drain_keeps order cut alone declares enough

end

end

open Reference NoMessages

def storeGuarded : FleetosCommand :=
  .applyManifests [⟨"workloads",workloadKey "acme" "shop",encodeWorkloadSpec (guardedShop [("web",oneStays)])⟩]

def guardedNode : Node := taking (boot Disk.empty) 1 storeGuarded

def halfHosted : Node := taking guardedNode 2 (.commitPlacement (workerPod 0))

def hostedShop : Node := taking halfHosted 3 (.commitPlacement (workerPod 1))

def cordonedWorker : Node := taking hostedShop 4 (.setNodeSchedulable workerId.1 false)

def firstTaken : Node := taking cordonedWorker 5 (.removePlacement "shop-web-0")

def drainedWorker : Node := taking firstTaken 6 (.recordOrdinalAssignment (freedOrdinal (workerPod 0)))

def hostedTrace : List (Transition Node Entry) :=
  [⟨boot Disk.empty,commandAt 1 storeGuarded,guardedNode⟩,
    ⟨guardedNode,commandAt 2 (.commitPlacement (workerPod 0)),halfHosted⟩,
    ⟨halfHosted,commandAt 3 (.commitPlacement (workerPod 1)),hostedShop⟩]

theorem hostedTrace_run : Run Advances (boot Disk.empty) hostedTrace hostedShop :=
  .cons (advances_apply (by decide +kernel)) (.cons (advances_apply (by decide +kernel))
    (.cons (advances_apply (by decide +kernel)) (.nil _)))

theorem placing_numbers {index : UInt64} {placement : Placement} (named : placement.podId = placement.slot.podId)
    (replicas : UInt32) (below : placement.ordinal < replicas) :
    (commandAt index (.commitPlacement placement)).NumbersPods := by
  refine ⟨⟨?_,?_⟩,?_⟩
  · rintro audited normal
    cases normal
    trivial
  · rintro audited normal
    cases normal
    refine ⟨?_,nofun⟩
    rintro record same
    cases same
    exact named
  · rintro audited record normal same
    cases normal
    cases same
    exact ⟨replicas,below⟩

theorem storing_numbers : (commandAt 1 storeGuarded).NumbersPods := by
  refine ⟨⟨?_,?_⟩,?_⟩
  · rintro audited normal
    cases normal
    intro update member
    obtain rfl := mem_singleton.mp member
    exact ⟨⟨"","Workload","shop","acme",none⟩,.workloads,rfl⟩
  · rintro audited normal
    cases normal
    exact ⟨nofun,nofun⟩
  · rintro audited record normal same
    cases normal
    cases same

theorem worker_drained : ∃ commands,
    (adminServer hostedShop.disk).evictNode fleetctlProxy "req-1" (drain (allowDisruption hostedShop.disk) hostedShop.disk)
      ⟨workerId.1,false⟩ = .ok commands ∧ commands.map (·.cmd) = drainCommands workerId.1 [workerPod 0] := by
  have groups : podGroups (getPlacementsForNode hostedShop.disk workerId) =
      [(("acme","shop","web"),[workerPod 0,workerPod 1])] := by decide +kernel
  have verdict : drainGroup (allowDisruption hostedShop.disk) ("acme","shop","web") [workerPod 0,workerPod 1] =
      some [workerPod 0] := by decide +kernel
  have cut : drain (allowDisruption hostedShop.disk) hostedShop.disk workerId = .partialEvictions [workerPod 0] := by
    simp [drain,groups,verdict]
  have named : parseArgument workerId.1 "node_svid" = .ok workerId := by decide +kernel
  have asked : (adminServer hostedShop.disk).evictNode fleetctlProxy "req-1"
      (drain (allowDisruption hostedShop.disk) hostedShop.disk) ⟨workerId.1,false⟩ =
        (adminServer hostedShop.disk).evictNode fleetctlProxy "req-1" (fun _ => .partialEvictions [workerPod 0])
          ⟨workerId.1,false⟩ := by
    simp only [AdminServer.evictNode,named,Bool.false_eq_true,if_false]
    simp only [bind,Except.bind,cut]
  rw [asked]
  exact ⟨_,rfl,rfl⟩

theorem one_pod_stays : Declares hostedShop.disk "acme" "shop" "web" 1 ∧
    (rolePlacements hostedShop.disk "acme" "shop" "web").length = 2 ∧
    Executes AppliesCommand hostedShop (drainCommands workerId.1 [workerPod 0]) drainedWorker ∧
    1 ≤ (rolePlacements drainedWorker.disk "acme" "shop" "web").length := by
  have declares : Declares hostedShop.disk "acme" "shop" "web" 1 :=
    ⟨encodeWorkloadSpec (guardedShop [("web",oneStays)]),guardedShop [("web",oneStays)],by decide +kernel,
      WorkloadMessages.decode_encode _,by decide +kernel⟩
  have two : (rolePlacements hostedShop.disk "acme" "shop" "web").length = 2 := by decide +kernel
  have executes : Executes AppliesCommand hostedShop (drainCommands workerId.1 [workerPod 0]) drainedWorker :=
    .cons (taking_applies (by decide +kernel)) (.cons (taking_applies (by decide +kernel))
      (.cons (taking_applies (by decide +kernel)) (.nil _)))
  obtain ⟨commands,ok,same⟩ := worker_drained
  have numbers : ∀ transition ∈ hostedTrace, transition.label.NumbersPods := by
    intro transition member
    simp only [hostedTrace,mem_cons,not_mem_nil,or_false] at member
    rcases member with rfl | rfl | rfl
    · exact storing_numbers
    · exact placing_numbers (by decide) 1 (by decide)
    · exact placing_numbers (by decide) 2 (by decide)
  obtain ⟨node,_,kept,_⟩ := unforced_eviction_keeps_minimum hostedTrace_run numbers rfl rfl ok (same ▸ executes)
  exact ⟨declares,two,executes,kept "acme" "shop" "web" 1 declares (by omega)⟩

end FleetosControl
