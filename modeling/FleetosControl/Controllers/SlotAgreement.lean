import FleetosControl.Controllers.NoExecute
import FleetosControl.Controllers.SlotCommands

/-! Ordinal records and placements of a slot, changed by several commands in turn. Each sequence of
these keeps the agreement when it runs alone. -/
namespace FleetosControl
open KeyValue Trace Sequences

def OrdinalAssignment.slot (record : OrdinalAssignment) : Slot :=
  ⟨record.tenantId,record.service,record.role,record.ordinal⟩

section
variable [FleetosCore]

/-- `removes` for a pod that is preempted, tainted off or drained, `retires` for one that is resized. -/
inductive SlotSequence where
  | schedules (placement : Placement)
  | removes (placement : Placement)
  | retires (placement : Placement)
  | command (cmd : FleetosCommand)

def SlotSequence.commands : SlotSequence → List FleetosCommand
  | .schedules placement =>
    [.recordOrdinalAssignment (placement.assignedTo placement.podId),.commitPlacement placement]
  | .removes placement =>
    [.removePlacement placement.podId,.recordOrdinalAssignment (freedOrdinal placement)]
  | .retires placement =>
    [.recordOrdinalAssignment (freedOrdinal placement),.removePlacement placement.podId]
  | .command cmd => [cmd]

def FleetosCommand.Alone : FleetosCommand → Prop
  | .recordOrdinalAssignment .. | .commitPlacement .. | .removePlacement .. => False
  | _ => True

def SlotSequence.Whole : SlotSequence → Prop
  | .command cmd => cmd.Alone
  | _ => True

def InSequences (proposals : List AuditedCommand) : Prop :=
  ∃ sequences : List SlotSequence, (∀ sequence ∈ sequences, sequence.Whole) ∧
    proposals.map (·.cmd) = sequences.flatMap SlotSequence.commands

theorem inSequences_nil : InSequences [] := ⟨[],by simp,rfl⟩

theorem inSequences_one {proposals : List AuditedCommand} {sequence : SlotSequence} (whole : sequence.Whole)
    (same : proposals.map (·.cmd) = sequence.commands) : InSequences proposals := by
  refine ⟨[sequence],?_,by simp [same]⟩
  intro other member
  rw [mem_singleton.mp member]
  exact whole

theorem InSequences.append {first second} (left : InSequences first) (right : InSequences second) :
    InSequences (first ++ second) := by
  obtain ⟨earlier,whole,same⟩ := left
  obtain ⟨later,also,rest⟩ := right
  refine ⟨earlier ++ later,?_,by simp [same,rest]⟩
  intro sequence member
  rcases mem_append.mp member with inside | inside
  · exact whole sequence inside
  · exact also sequence inside

theorem inSequences_flatMap {α : Type} {items : List α} {proposals : α → List AuditedCommand}
    (each : ∀ item ∈ items, InSequences (proposals item)) : InSequences (items.flatMap proposals) := by
  induction items with
  | nil => exact inSequences_nil
  | cons item items ih =>
    rw [List.flatMap_cons]
    exact (each item mem_cons_self).append (ih fun other member => each other (mem_cons_of_mem _ member))

theorem commitScheduling_in_sequences (pod : PendingPod) (nodeId : SpiffeId) : InSequences (commitScheduling pod nodeId) :=
  @inSequences_one _ _
    (.schedules ⟨pod.podId,pod.tenantId,pod.service,pod.role,pod.ordinal,nodeId,pod.resources⟩) trivial rfl

theorem removeStalePod_in_sequences (pod : Placement) : InSequences (VpaController.removeStalePod pod) :=
  @inSequences_one _ _ (.retires pod) trivial rfl

variable [Formats]

theorem getAssignment_some {disk slot record} : getAssignment disk slot = .ok (some record) ↔
      ∃ bytes, (disk .ordinals)[slot.key]? = some bytes ∧ fromBytes bytes = .ok record := by
  unfold getAssignment Slot.key
  cases (disk .ordinals)[ordinalKey slot.tenantId slot.workloadId slot.role slot.ordinal]? with
  | none => simp
  | some bytes => cases decoded : fromBytes (α := OrdinalAssignment) bytes <;> simp [decoded,Except.mapError,Except.map]

def NamesPod (disk : Disk) (slot : Slot) (podId nodeId : String) : Prop :=
  ∃ record, getAssignment disk slot = .ok (some record) ∧ record.slot = slot ∧
    record.currentPodId = some podId ∧ record.currentNodeId = some nodeId

def PlacedAs (disk : Disk) (slot : Slot) (podId nodeId : String) : Prop :=
  ∃ placement ∈ scanRecords Placement disk .placements, placement.slot = slot ∧ placement.podId = podId ∧
    display placement.nodeId = nodeId

def SlotsAgree (disk : Disk) : Prop :=
  ∀ slot podId nodeId, NamesPod disk slot podId nodeId ↔ PlacedAs disk slot podId nodeId

def OwnsKey (disk : Disk) (slot : Slot) : Prop :=
  ∀ record, getAssignment disk slot = .ok (some record) → record.slot = slot

section
variable {before after : Disk}

theorem getAssignment_congr {slot : Slot} (same : (after .ordinals)[slot.key]? = (before .ordinals)[slot.key]?) :
    getAssignment after slot = getAssignment before slot := by
  unfold getAssignment
  change (after .ordinals)[ordinalKey _ _ _ _]? = (before .ordinals)[ordinalKey _ _ _ _]? at same
  rw [same]

theorem namesPod_congr {slot : Slot} {podId nodeId}
    (same : (after .ordinals)[slot.key]? = (before .ordinals)[slot.key]?) :
    NamesPod after slot podId nodeId ↔ NamesPod before slot podId nodeId := by
  rw [NamesPod,getAssignment_congr same,NamesPod]

theorem getAssignment_put {record} {slot : Slot} (written : (after .ordinals)[slot.key]? = some (toAllocvec record)) :
    getAssignment after slot = .ok (some record) :=
  getAssignment_some.mpr ⟨_,written,fromBytes_toAllocvec _⟩

theorem namesPod_put {record : OrdinalAssignment} (own : OwnsKey before record.slot)
    (written : after .ordinals = (before .ordinals).insert record.slot.key (toAllocvec record)) {slot podId nodeId} :
    NamesPod after slot podId nodeId ↔
      slot = record.slot ∧ record.currentPodId = some podId ∧ record.currentNodeId = some nodeId ∨
        slot ≠ record.slot ∧ NamesPod before slot podId nodeId := by
  by_cases key : slot.key = record.slot.key
  · have found : getAssignment after slot = .ok (some record) := by
      apply getAssignment_put
      rw [written,key]
      exact Std.ExtTreeMap.getElem?_insert_self
    -- under this key there was at most the record of the same slot
    have foreign : slot ≠ record.slot → ¬NamesPod before slot podId nodeId := by
      rintro different ⟨other,stored,mine,_⟩
      obtain ⟨bytes,lookup,decoded⟩ := getAssignment_some.mp stored
      have its := own other (getAssignment_some.mpr ⟨bytes,key ▸ lookup,decoded⟩)
      exact different (mine.symm.trans its)
    constructor
    · rintro ⟨other,stored,mine,pod,node⟩
      cases found.symm.trans stored
      exact .inl ⟨mine.symm,pod,node⟩
    · rintro (⟨rfl,pod,node⟩ | ⟨different,named⟩)
      · exact ⟨record,found,rfl,pod,node⟩
      · exact absurd named (foreign different)
  · have different : slot ≠ record.slot := fun same => key (congrArg Slot.key same)
    have kept : (after .ordinals)[slot.key]? = (before .ordinals)[slot.key]? := by
      rw [written]
      apply Option.ext
      intro found
      rw [insert_eq_some]
      simp [key]
    rw [namesPod_congr kept]
    simp [different]

end

section
variable {before after : Disk} (filed : PlacementsFiled before) (agree : SlotsAgree before)
include agree

theorem SlotsAgree.named {placement} (placed : placement ∈ scanRecords Placement before .placements) :
    NamesPod before placement.slot placement.podId (display placement.nodeId) :=
  (agree _ _ _).mpr ⟨placement,placed,rfl,rfl,rfl⟩

theorem SlotsAgree.owns {placement} (placed : placement ∈ scanRecords Placement before .placements) :
    OwnsKey before placement.slot := by
  obtain ⟨record,found,own,_⟩ := agree.named placed
  intro other stored
  cases found.symm.trans stored
  exact own

theorem SlotsAgree.slot_of_key {left right} (one : left ∈ scanRecords Placement before .placements)
    (other : right ∈ scanRecords Placement before .placements) (same : left.slot.key = right.slot.key) :
    left.slot = right.slot := by
  obtain ⟨record,found,own,_⟩ := agree.named one
  obtain ⟨bytes,lookup,decoded⟩ := getAssignment_some.mp found
  have its := agree.owns other record (getAssignment_some.mpr ⟨bytes,same ▸ lookup,decoded⟩)
  exact own.symm.trans its

theorem SlotsAgree.unchanged (placements : after .placements = before .placements)
    (ordinals : after .ordinals = before .ordinals) : SlotsAgree after := by
  intro slot podId nodeId
  rw [namesPod_congr (congrArg (·[slot.key]?) ordinals),agree,PlacedAs,PlacedAs,scanRecords_congr placements]

theorem SlotsAgree.reassigned {placement} (placed : placement ∈ scanRecords Placement before .placements) {newPodId}
    (reassigned : Reassigned before after placement newPodId) : SlotsAgree after := by
  intro slot podId nodeId
  have own : OwnsKey before (placement.assignedTo newPodId).slot := agree.owns placed
  rw [namesPod_put own reassigned.ordinals,agree]
  constructor
  · rintro (⟨rfl,pod,node⟩ | ⟨different,other,earlier,rfl,rest⟩)
    · exact ⟨_,(reassigned.placements _).mpr (.inl rfl),rfl,Option.some.inj pod,Option.some.inj node⟩
    · exact ⟨other,(reassigned.placements other).mpr (.inr ⟨earlier,different⟩),rfl,rest⟩
  · rintro ⟨other,inside,rfl,rfl,rfl⟩
    rcases (reassigned.placements other).mp inside with rfl | ⟨earlier,different⟩
    · exact .inl ⟨rfl,rfl,rfl⟩
    · exact .inr ⟨different,other,earlier,rfl,rfl,rfl⟩

include filed

theorem SlotsAgree.single : OnePerSlot before := by
  intro left one right other same
  obtain ⟨record,found,_,pod,_⟩ := agree.named one
  obtain ⟨again,stored,_,also,_⟩ := agree.named other
  rw [same,stored] at found
  cases found
  exact filed_podId filed one other (Option.some.inj (pod.symm.trans also))

theorem SlotsAgree.cleared {gone : Placement → Prop}
    (placements : ∀ placement, placement ∈ scanRecords Placement after .placements ↔
      placement ∈ scanRecords Placement before .placements ∧ ¬gone placement)
    (freed : ∀ placement ∈ scanRecords Placement before .placements, gone placement →
      (after .ordinals)[placement.slot.key]? = some (toAllocvec (freedOrdinal placement)))
    (spared : ∀ key, (∀ placement ∈ scanRecords Placement before .placements, gone placement → placement.slot.key ≠ key) →
      (after .ordinals)[key]? = (before .ordinals)[key]?) : SlotsAgree after := by
  intro slot podId nodeId
  constructor
  · rintro ⟨record,found,own,pod,node⟩
    have kept : ∀ placement ∈ scanRecords Placement before .placements, gone placement → placement.slot.key ≠ slot.key := by
      intro placement listed went same
      have empty := getAssignment_put (same ▸ freed placement listed went)
      cases found.symm.trans empty
      cases pod
    have named : NamesPod before slot podId nodeId := (namesPod_congr (spared _ kept)).mp ⟨record,found,own,pod,node⟩
    obtain ⟨placement,listed,rfl,rest⟩ := (agree _ _ _).mp named
    exact ⟨placement,(placements placement).mpr ⟨listed,fun went => kept placement listed went rfl⟩,rfl,rest⟩
  · rintro ⟨placement,listed,rfl,rfl,rfl⟩
    obtain ⟨placed,stays⟩ := (placements placement).mp listed
    refine (namesPod_congr (spared _ fun other inside went same => stays ?_)).mpr (agree.named placed)
    rw [← agree.single filed other inside placement placed (agree.slot_of_key inside placed same)]
    exact went

theorem SlotsAgree.scheduled {placement : Placement} (own : OwnsKey before placement.slot)
    (vacant : ∀ other ∈ scanRecords Placement before .placements,
      other.podId ≠ placement.podId ∧ other.slot ≠ placement.slot)
    (placements : after .placements = (before .placements).insert (asBytes placement.podId) (toAllocvec placement))
    (ordinals : after .ordinals = (before .ordinals).insert placement.slot.key
    (toAllocvec (placement.assignedTo placement.podId))) :
    SlotsAgree after := by
  have listed : ∀ other, other ∈ scanRecords Placement after .placements ↔
      other = placement ∨ other ∈ scanRecords Placement before .placements := by
    intro other
    rw [mem_scanRecords,placements]
    constructor
    · rintro ⟨key,bytes,stored,decoded⟩
      rcases insert_eq_some.mp stored with ⟨_,rfl⟩ | ⟨_,kept⟩
      · rw [fromBytes_iff] at decoded
        exact .inl decoded.symm
      · exact .inr (mem_scanRecords.mpr ⟨key,bytes,kept,decoded⟩)
    · rintro (rfl | earlier)
      · exact ⟨_,_,insert_eq_some.mpr (.inl ⟨rfl,rfl⟩),fromBytes_toAllocvec _⟩
      · obtain ⟨bytes,stored,decoded⟩ := filed_key filed earlier
        have apart : asBytes other.podId ≠ asBytes placement.podId :=
          fun same => (vacant other earlier).1 (asBytes_injective same)
        exact ⟨_,bytes,insert_eq_some.mpr (.inr ⟨apart,stored⟩),decoded⟩
  intro slot podId nodeId
  rw [@namesPod_put _ _ _ _ (placement.assignedTo placement.podId) own ordinals,agree]
  constructor
  · rintro (⟨rfl,pod,node⟩ | ⟨_,other,earlier,rest⟩)
    · exact ⟨placement,(listed placement).mpr (.inl rfl),rfl,Option.some.inj pod,Option.some.inj node⟩
    · exact ⟨other,(listed other).mpr (.inr earlier),rest⟩
  · rintro ⟨other,inside,rfl,rfl,rfl⟩
    rcases (listed other).mp inside with rfl | earlier
    · exact .inl ⟨rfl,rfl,rfl⟩
    · exact .inr ⟨(vacant other earlier).2,other,earlier,rfl,rfl,rfl⟩

theorem SlotsAgree.vacated {placement : Placement} (own : OwnsKey before placement.slot)
    (alone : ∀ other ∈ scanRecords Placement before .placements,
      (other.podId = placement.podId ↔ other.slot = placement.slot))
    (placements : after .placements = (before .placements).erase (asBytes placement.podId))
    (ordinals : after .ordinals =
      (before .ordinals).insert placement.slot.key (toAllocvec (freedOrdinal placement))) :
    SlotsAgree after := by
  have listed : ∀ other, other ∈ scanRecords Placement after .placements ↔
      other ∈ scanRecords Placement before .placements ∧ other.slot ≠ placement.slot := by
    intro other
    rw [mem_scanRecords,placements]
    constructor
    · rintro ⟨key,bytes,stored,decoded⟩
      obtain ⟨apart,kept⟩ := erase_eq_some.mp stored
      have earlier := mem_scanRecords.mpr ⟨key,bytes,kept,decoded⟩
      refine ⟨earlier,fun same => apart ?_⟩
      rw [← (alone other earlier).mpr same]
      exact filed key bytes kept other decoded
    · rintro ⟨earlier,different⟩
      obtain ⟨bytes,stored,decoded⟩ := filed_key filed earlier
      refine ⟨_,bytes,erase_eq_some.mpr ⟨fun same => different ?_,stored⟩,decoded⟩
      exact (alone other earlier).mp (asBytes_injective same)
  intro slot podId nodeId
  rw [@namesPod_put _ _ _ _ (freedOrdinal placement) own ordinals,agree]
  constructor
  · rintro (⟨_,pod,_⟩ | ⟨different,other,earlier,rfl,rest⟩)
    · cases pod
    · exact ⟨other,(listed other).mpr ⟨earlier,different⟩,rfl,rest⟩
  · rintro ⟨other,inside,rfl,rest⟩
    obtain ⟨earlier,different⟩ := (listed other).mp inside
    exact .inr ⟨different,other,earlier,rfl,rest⟩

end

theorem slotsAgree_empty : SlotsAgree Disk.empty := by
  intro slot podId nodeId
  refine iff_of_false ?_ ?_
  · rintro ⟨record,found,_⟩
    obtain ⟨bytes,stored,_⟩ := getAssignment_some.mp found
    simp [Disk.empty] at stored
  · rintro ⟨placement,placed,_⟩
    obtain ⟨key,bytes,stored,_⟩ := mem_scanRecords.mp placed
    simp [Disk.empty] at stored

theorem placementProposals_in_sequences {storage : Disk} {specs : List WorkloadSpec} {proposals : List AuditedCommand}
    (ok : WorkloadController.placementProposals storage specs = .ok proposals) : InSequences proposals := by
  obtain ⟨found,_,made⟩ := bind_ok ok
  cases made
  apply InSequences.append
  · apply inSequences_flatMap
    intro pod _
    split
    · exact commitScheduling_in_sequences pod _
    · exact inSequences_nil
  · apply inSequences_flatMap
    intro planned _
    refine .append (inSequences_flatMap fun victim _ => ?_) (commitScheduling_in_sequences _ _)
    exact @inSequences_one _ _ (.removes victim) trivial rfl

theorem evictTainted_in_sequences (storage : Disk) (now : Int64) (nodeId : String) (nodeTaints : List NodeTaint) :
    InSequences (NodeController.evictTainted storage now nodeId nodeTaints) := by
  unfold NodeController.evictTainted
  cases parse nodeId with
  | error => exact inSequences_nil
  | ok node =>
    apply inSequences_flatMap
    intro podId _
    split
    case h_1 => exact inSequences_nil
    case h_2 placement found =>
      have named : placement.podId = podId := by simpa using List.find?_some found
      subst named
      exact @inSequences_one _ _ (.removes placement) trivial rfl

theorem enforceNoExecuteTaints_in_sequences (storage : Disk) (now : Int64) :
    InSequences (NodeController.enforceNoExecuteTaints storage now) := by
  apply inSequences_flatMap
  intro entry _
  split
  · exact evictTainted_in_sequences storage now _ _
  · exact inSequences_nil

theorem evictNode_in_sequences {server : AdminServer} {peer : Peer} {requestId : String}
    {guard : SpiffeId → AdminServer.Drain} {req : EvictNodeRequest} {commands : List AuditedCommand}
    (ok : server.evictNode peer requestId guard req = .ok commands) : InSequences commands := by
  obtain ⟨_,_,ok⟩ := bind_ok ok
  obtain ⟨_,_,ok⟩ := bind_ok ok
  obtain ⟨node,_,ok⟩ := bind_ok ok
  have cordon : ∀ audit : Option AuditContext, InSequences [⟨.setNodeSchedulable req.nodeSvid false,audit⟩] := fun audit =>
    @inSequences_one _ _ (.command (.setNodeSchedulable req.nodeSvid false)) trivial rfl
  split at ok
  case h_1 =>
    cases ok
    exact @inSequences_one _ _ (.command (.evictNode req.nodeSvid _)) trivial rfl
  case h_2 =>
    cases ok
    refine (cordon _).append (inSequences_flatMap fun placement _ => ?_)
    exact @inSequences_one _ _ (.removes placement) trivial rfl

/-- No pass and no eviction proposes a command of a sequence outside of one. -/
theorem proposed_in_sequences (storage specs now pod peer requestId guard req) (server : AdminServer) :
    (∀ proposals, WorkloadController.placementProposals storage specs = .ok proposals → InSequences proposals) ∧
    InSequences (NodeController.enforceNoExecuteTaints storage now) ∧ InSequences (VpaController.removeStalePod pod) ∧
    ∀ commands, server.evictNode peer requestId guard req = .ok commands → InSequences commands :=
  ⟨fun _ => placementProposals_in_sequences,enforceNoExecuteTaints_in_sequences storage now,removeStalePod_in_sequences pod,
    fun _ => evictNode_in_sequences⟩

/-- What a command on its own needs: a new pod id is in no other slot, and a node that is evicted has no pods. -/
def FleetosCommand.SparesSlots (disk : Disk) : FleetosCommand → Prop
  | .reassignPodId tenantId workloadId role ordinal newPodId =>
    ∀ other ∈ scanRecords Placement disk .placements, other.podId = newPodId →
      other.slot = ⟨tenantId,workloadId,role,ordinal⟩
  | .evictNode nodeId _ =>
    ∀ placement ∈ scanRecords Placement disk .placements, parse nodeId ≠ .ok placement.nodeId
  | _ => True

section
variable {before after : Node}

theorem recordOrdinalAssignment_effect {record}
    (applies : AppliesCommand before (.recordOrdinalAssignment record) after) :
    after.disk .placements = before.disk .placements ∧
      after.disk .ordinals = (before.disk .ordinals).insert record.slot.key (toAllocvec record) := by
  obtain ⟨_,_,ok,same⟩ := applies.commits
  cases ok
  exact ⟨same .placements rfl,same .ordinals rfl⟩

theorem commitPlacement_effect {placement} (applies : AppliesCommand before (.commitPlacement placement) after) :
    after.disk .placements = (before.disk .placements).insert (asBytes placement.podId) (toAllocvec placement) ∧
      after.disk .ordinals = before.disk .ordinals := by
  obtain ⟨_,_,ok,same⟩ := applies.commits
  cases ok
  exact ⟨same .placements rfl,same .ordinals rfl⟩

theorem removePlacement_effect {podId} (applies : AppliesCommand before (.removePlacement podId) after) :
    after.disk .placements = (before.disk .placements).erase (asBytes podId) ∧
      after.disk .ordinals = before.disk .ordinals := by
  obtain ⟨_,_,ok,same⟩ := applies.commits
  cases ok
  exact ⟨same .placements rfl,same .ordinals rfl⟩

end

section
variable {disk : Disk} (filed : Every Filed disk) (agree : SlotsAgree disk)
include filed agree

theorem SlotsAgree.clearing {first : Write} (table : first.table = .workloads) {tenantId workloadId}
    {hit : Placement → Bool} (own : ∀ placement, hit placement = true → placement.Of tenantId workloadId) :
    SlotsAgree (commit disk (first::clearing disk tenantId workloadId hit)) := by
  have left : ∀ placement, placement ∈ scanRecords Placement
      (commit disk (first::FleetosControl.clearing disk tenantId workloadId hit)) .placements ↔
        placement ∈ scanRecords Placement disk .placements ∧ ¬hit placement = true := by
    intro placement
    rw [FleetosControl.clearing,scanRecords_congr (freed_placements disk first (by simp [table]) _ _ _),
      scan_removed (filed .placements) hit,mem_filter]
    simp
  apply agree.cleared (filed .placements) left
  · intro placement listed struck
    apply clearing_freed (by simp [table]) own listed struck
    intro other inside _ same
    exact agree.slot_of_key inside listed same
  · intro key spared
    exact clearing_spared (by simp [table]) own spared

theorem evictNode_agrees_iff {nodeId} {expires : Int64} {writes kind}
    (ok : applyCommand disk (.evictNode nodeId expires) = .ok (writes,kind)) :
    SlotsAgree (commit disk writes) ↔ (FleetosCommand.evictNode nodeId expires).SparesSlots disk := by
  have ordinals : commit disk writes .ordinals = disk .ordinals :=
    applyCommand_frame ok .ordinals (by simp [touches])
  have only : (FleetosCommand.evictNode nodeId expires).TakesOnly := trivial
  have left : ∀ placement, placement ∈ scanRecords Placement (commit disk writes) .placements ↔
      placement ∈ scanRecords Placement disk .placements ∧ parse nodeId ≠ .ok placement.nodeId := by
    intro placement
    rw [takesOnly_left filed only ok,mem_filter,Bool.not_eq_true',← Bool.not_eq_true,evictNode_hits]
  constructor
  · intro after placement placed hosted
    have named := (namesPod_congr (congrArg (·[placement.slot.key]?) ordinals)).mpr (agree.named placed)
    obtain ⟨other,inside,_,sameId,_⟩ := (after _ _ _).mp named
    obtain ⟨earlier,elsewhere⟩ := (left other).mp inside
    rw [filed_podId (filed .placements) earlier placed sameId] at elsewhere
    exact elsewhere hosted
  · intro spared
    apply agree.cleared (filed .placements) left
    · intro placement placed hosted
      exact absurd hosted (spared placement placed)
    · intro key _
      rw [ordinals]

theorem reassignPodId_agrees {slot newPodId}
    (unused : ∀ other ∈ scanRecords Placement disk .placements, other.podId = newPodId → other.slot = slot) :
    SlotsAgree (commit disk (reassignPodId disk slot.tenantId slot.workloadId slot.role slot.ordinal newPodId)) := by
  have single := agree.single (filed .placements)
  by_cases placed : ∃ placement ∈ scanRecords Placement disk .placements, placement.slot = slot
  · obtain ⟨placement,placed,rfl⟩ := placed
    rw [reassignPodId_found single placed]
    exact agree.reassigned placed (renamed_reassigns (filed .placements) placed single unused)
  · rw [reassignPodId_empty fun placement listed same => placed ⟨placement,listed,same⟩]
    exact agree

section
variable [Merges]

theorem command_agrees {cmd : FleetosCommand} (alone : cmd.Alone) (proposable : cmd.Proposable)
    (spares : cmd.SparesSlots disk) {writes kind} (ok : applyCommand disk cmd = .ok (writes,kind)) : SlotsAgree
    (commit disk writes) := by
  cases cmd
  case recordOrdinalAssignment | commitPlacement | removePlacement => exact alone.elim
  case reassignPodId tenantId workloadId role ordinal newPodId =>
    cases ok
    exact @reassignPodId_agrees _ _ _ filed agree ⟨tenantId,workloadId,role,ordinal⟩ _ spares
  case evictNode => exact (evictNode_agrees_iff filed agree ok).mpr spares
  case scaleWorkload record =>
    cases ok
    apply SlotsAgree.clearing filed agree rfl
    intro placement struck
    simp only [Bool.and_eq_true,decide_eq_true_eq] at struck
    exact struck.1
  case deleteWorkload tenantId workloadId =>
    cases ok
    apply SlotsAgree.clearing filed agree rfl
    intro placement struck
    simp only [Bool.and_eq_true,decide_eq_true_eq] at struck
    exact struck
  case applyManifests updates =>
    cases ok
    apply agree.unchanged <;> apply commit_frame <;> intro write member table
    all_goals simpa [table] using applyManifests_table proposable member
  all_goals
    exact agree.unchanged (applyCommand_frame ok .placements (by simp [touches]))
      (applyCommand_frame ok .ordinals (by simp [touches]))

end

end

section
variable [Merges]

/-- Where a sequence may begin. A pod that goes is the only one with its id and the only one in its slot. -/
def SlotSequence.Fits (disk : Disk) : SlotSequence → Prop
  | .schedules placement => OwnsKey disk placement.slot ∧ ∀ other ∈ scanRecords Placement disk .placements,
      other.podId ≠ placement.podId ∧ other.slot ≠ placement.slot
  | .removes placement | .retires placement => OwnsKey disk placement.slot ∧
      ∀ other ∈ scanRecords Placement disk .placements, (other.podId = placement.podId ↔ other.slot = placement.slot)
  | .command cmd => cmd.Alone ∧ cmd.Proposable ∧ cmd.SparesSlots disk

theorem sequence_agrees {before after : Node} (filed : Every Filed before.disk) (agree : SlotsAgree before.disk)
    {sequence : SlotSequence} (fits : sequence.Fits before.disk)
    (executes : Executes AppliesCommand before sequence.commands after) :
    SlotsAgree after.disk := by
  cases sequence with
  | schedules placement =>
    obtain _ | ⟨recorded,_ | ⟨committed,_ | _⟩⟩ := executes
    obtain ⟨kept,written⟩ := recordOrdinalAssignment_effect recorded
    obtain ⟨placed,same⟩ := commitPlacement_effect committed
    exact agree.scheduled (filed .placements) fits.1 fits.2 (kept ▸ placed) (same.trans written)
  | removes placement =>
    obtain _ | ⟨removed,_ | ⟨recorded,_ | _⟩⟩ := executes
    obtain ⟨gone,same⟩ := removePlacement_effect removed
    obtain ⟨kept,written⟩ := recordOrdinalAssignment_effect recorded
    exact agree.vacated (filed .placements) fits.1 fits.2 (kept.trans gone) (same ▸ written)
  | retires placement =>
    obtain _ | ⟨recorded,_ | ⟨removed,_ | _⟩⟩ := executes
    obtain ⟨kept,written⟩ := recordOrdinalAssignment_effect recorded
    obtain ⟨gone,same⟩ := removePlacement_effect removed
    exact agree.vacated (filed .placements) fits.1 fits.2 (kept ▸ gone) (same.trans written)
  | command cmd =>
    obtain _ | ⟨applied,_ | _⟩ := executes
    obtain ⟨writes,kind,ok,same⟩ := applied.commits
    have agreed := command_agrees filed agree fits.1 fits.2.1 fits.2.2 ok
    exact agreed.unchanged (same .placements rfl) (same .ordinals rfl)

theorem sequence_proposable {disk} {sequence : SlotSequence} (fits : sequence.Fits disk) :
    ∀ cmd ∈ sequence.commands, cmd.Proposable := by
  cases sequence with
  | command cmd =>
    intro other member
    rw [mem_singleton.mp member]
    exact fits.2.1
  | schedules | removes | retires => simp [SlotSequence.commands,FleetosCommand.Proposable]

/-- Ordinal records and placements agree if no sequence is broken off and each begins where it fits. -/
theorem slots_agree_between_sequences {last : Desk Node FleetosCommand}
    {trace : List (Transition (Desk Node FleetosCommand) (Event FleetosCommand SlotSequence))}
    (run : Run (Proceeds AppliesCommand SlotSequence.commands) ⟨boot Disk.empty,[]⟩ trace last)
    (sound : ∀ transition ∈ trace, Sequences.Sound (fun node => SlotSequence.Fits node.disk) transition) :
    (∀ transition ∈ trace, transition.after.running = [] → SlotsAgree transition.after.state.disk) ∧
      (last.running = [] → SlotsAgree last.state.disk) := by
  have kept : ∀ (before : Node) (sequence : SlotSequence) (after : Node),
      Every Filed before.disk ∧ SlotsAgree before.disk → sequence.Fits before.disk →
        Executes AppliesCommand before sequence.commands after → Every Filed after.disk ∧ SlotsAgree after.disk := by
    rintro before sequence after ⟨filed,agree⟩ fits executes
    refine ⟨?_,sequence_agrees filed agree fits executes⟩
    exact Executes.keeps applies_filed executes (sequence_proposable fits) filed
  obtain ⟨each,final⟩ := between_sequences run kept rfl ⟨every_empty _,slotsAgree_empty⟩ sound
  exact ⟨fun transition member idle => (each transition member idle).2,fun idle => (final idle).2⟩

end

end

open Reference NoMessages

def taking (node : Node) (index : UInt64) (cmd : FleetosCommand) : Node := (apply node [commandAt index cmd]).1

theorem taking_applies {node} {index : UInt64} {cmd} (ok : (applyEntry node (commandAt index cmd)).isOk = true) :
    AppliesCommand node cmd (taking node index cmd) :=
  ⟨commandAt index cmd,_,rfl,rfl,advances_apply ok⟩

def shopScheduled (node : Node) (index : UInt64) (ordinal : UInt32) : Node :=
  taking (taking node index (.recordOrdinalAssignment ((workerPod ordinal).assignedTo (workerPod ordinal).podId)))
    (index + 1) (.commitPlacement (workerPod ordinal))

def onePod : Node := shopScheduled (boot Disk.empty) 1 0

def bothPods : Node := shopScheduled onePod 3 1

def secondPod : Node :=
  taking (taking bothPods 5 (.removePlacement (workerPod 0).podId)) 6
    (.recordOrdinalAssignment (freedOrdinal (workerPod 0)))

theorem onePod_executes :
    Executes AppliesCommand (boot Disk.empty) (SlotSequence.schedules (workerPod 0)).commands onePod :=
  .cons (taking_applies (by decide +kernel)) (.cons (taking_applies (by decide +kernel)) (.nil _))

theorem unrecorded {disk slot} (none : getAssignment disk slot = .ok none) : OwnsKey disk slot := by
  intro record found
  cases none.symm.trans found

theorem second_pod_stays_named : ∃ trace last,
    Run (Proceeds AppliesCommand SlotSequence.commands) ⟨boot Disk.empty,[]⟩ trace last ∧
      (∀ transition ∈ trace, Sequences.Sound (fun node => SlotSequence.Fits node.disk) transition) ∧
      last.running = [] ∧ SlotsAgree last.state.disk ∧ PlacedAs last.state.disk (workerPod 1).slot "shop-web-1" workerId.1 := by
  let fits : Node → SlotSequence → Prop := fun node => SlotSequence.Fits node.disk
  have first : (SlotSequence.schedules (workerPod 0)).Fits (boot Disk.empty).disk :=
    ⟨unrecorded (by decide +kernel),by decide +kernel⟩
  have second : (SlotSequence.schedules (workerPod 1)).Fits onePod.disk :=
    ⟨unrecorded (by decide +kernel),by decide +kernel⟩
  have named : getAssignment bothPods.disk (workerPod 0).slot =
      .ok (some ((workerPod 0).assignedTo (workerPod 0).podId)) := by decide +kernel
  have third : (SlotSequence.removes (workerPod 0)).Fits bothPods.disk := by
    refine ⟨fun record found => ?_,by decide +kernel⟩
    cases named.symm.trans found
    rfl
  have schedules : Executes AppliesCommand onePod (SlotSequence.schedules (workerPod 1)).commands bothPods :=
    .cons (taking_applies (by decide +kernel)) (.cons (taking_applies (by decide +kernel)) (.nil _))
  have removes : Executes AppliesCommand bothPods (SlotSequence.removes (workerPod 0)).commands secondPod :=
    .cons (taking_applies (by decide +kernel)) (.cons (taking_applies (by decide +kernel)) (.nil _))
  obtain ⟨opening,begun,fine⟩ := sequence_runs fits first onePod_executes
  obtain ⟨middle,run,also⟩ := sequence_runs fits second schedules
  obtain ⟨closing,ended,rest⟩ := sequence_runs fits third removes
  have whole := (begun.append run).append ended
  have sound := List.forall_mem_append.mpr ⟨List.forall_mem_append.mpr ⟨fine,also⟩,rest⟩
  refine ⟨_,_,whole,sound,rfl,(slots_agree_between_sequences whole sound).2 rfl,?_⟩
  exact ⟨workerPod 1,by decide +kernel,rfl,by decide,rfl⟩

def podEvicted : Node := taking onePod 3 (.evictNode workerId.1 1700086400)

theorem still_named {disk slot podId nodeId record}
    (found : getAssignment disk slot = .ok (some record)) (own : record.slot = slot)
    (pod : record.currentPodId = some podId) (node : record.currentNodeId = some nodeId)
    (empty : scanRecords Placement disk .placements = []) : ¬SlotsAgree disk := by
  intro agree
  obtain ⟨placement,placed,_⟩ := (agree slot podId nodeId).mp ⟨record,found,own,pod,node⟩
  rw [empty] at placed
  cases placed

/-- No sequence was left midway. The second cluster is one that the controller has filled. -/
theorem evicted_pod_still_named : (∃ trace last,
    Run (Proceeds AppliesCommand SlotSequence.commands) ⟨boot Disk.empty,[]⟩ trace last ∧
      (∀ transition ∈ trace, Sequences.Sound (fun _ sequence => SlotSequence.Whole sequence) transition) ∧
      last.running = [] ∧ ¬SlotsAgree last.state.disk) ∧ ¬SlotsAgree evictedWorker.disk := by
  constructor
  · have scheduled : (SlotSequence.schedules (workerPod 0)).Whole := trivial
    have alone : (SlotSequence.command (.evictNode workerId.1 1700086400)).Whole := trivial
    have evicts : Executes AppliesCommand onePod (SlotSequence.command (.evictNode workerId.1 1700086400)).commands
        podEvicted := .cons (taking_applies (by decide +kernel)) (.nil _)
    obtain ⟨opening,begun,fine⟩ := sequence_runs (fun _ sequence => SlotSequence.Whole sequence) scheduled onePod_executes
    obtain ⟨closing,ended,rest⟩ := sequence_runs (fun _ sequence => SlotSequence.Whole sequence) alone evicts
    refine ⟨_,_,begun.append ended,List.forall_mem_append.mpr ⟨fine,rest⟩,rfl,?_⟩
    exact @still_named podEvicted.disk (workerPod 0).slot _ _ ((workerPod 0).assignedTo (workerPod 0).podId)
      (by decide +kernel) rfl rfl rfl (by decide +kernel)
  · exact @still_named evictedWorker.disk ⟨"acme","shop","web",0⟩ _ _
      ⟨"acme","shop","web",0,some "shop-web-0",some workerId.1⟩ (by decide +kernel) rfl rfl rfl (by decide +kernel)

end FleetosControl
