import FleetosControl.Controllers.PodIds
import FleetosControl.Disruption.Guard

/-! The commands that clear slots and the one that renames a pod. Placement and ordinal record are
changed for the slots concerned, and nothing else is. -/
namespace FleetosControl
open Wire KeyValue Std

def Slot.key (slot : Slot) : Bytes := ordinalKey slot.tenantId slot.workloadId slot.role slot.ordinal

def Slot.freed (slot : Slot) : OrdinalAssignment :=
  ⟨slot.tenantId,slot.workloadId,slot.role,slot.ordinal,none,none⟩

/-- The names on which the keys are cut do not hold the separator. -/
def Slot.Plain (slot : Slot) : Prop := ':' ∉ slot.tenantId.toList ∧ ':' ∉ slot.workloadId.toList

theorem ordinalKey_injective {left right : Slot} (plain : left.Plain) (other : right.Plain) (same : left.key = right.key) :
    left = right := by
  have texts := congrArg String.toList (asBytes_injective same)
  simp only [String.toList_append,List.append_assoc] at texts
  obtain ⟨tenant,rest⟩ := (Separated.join_inj_first plain.1 other.1).mp texts
  obtain ⟨workload,rest⟩ := (Separated.join_inj_first plain.2 other.2).mp rest
  obtain ⟨role,ordinal⟩ := (Separated.join_inj_last (Separated.not_mem_repr (by decide) _)
    (Separated.not_mem_repr (by decide) _)).mp rest
  cases left
  cases right
  rw [Slot.mk.injEq]
  exact ⟨String.toList_inj.mp tenant,String.toList_inj.mp workload,String.toList_inj.mp role,
    toString_ordinal_inj.mp (String.toList_inj.mp ordinal)⟩

theorem workloadKey_injective {tenantId workloadId owner other : String} (plain : ':' ∉ tenantId.toList)
    (apart : ':' ∉ owner.toList) (same : workloadKey tenantId workloadId = workloadKey owner other) :
    tenantId = owner ∧ workloadId = other := by
  have texts := congrArg String.toList (asBytes_injective same)
  simp only [String.toList_append,List.append_assoc] at texts
  obtain ⟨tenant,workload⟩ := (Separated.join_inj_first plain apart).mp texts
  exact ⟨String.toList_inj.mp tenant,String.toList_inj.mp workload⟩

section
variable [FleetosCore] {placement : Placement} {disk : Disk} {slot : Slot} {newPodId : String}

def Placement.Of (placement : Placement) (tenantId workloadId : String) : Prop :=
  placement.tenantId = tenantId ∧ placement.service = workloadId

theorem shouldRemove_iff :
    shouldRemove replicas placement = true ↔ ¬∃ count, replicas[placement.role]? = some count ∧ placement.ordinal < count := by
  unfold shouldRemove
  cases replicas[placement.role]? with
  | none => simp
  | some count => simp

variable [Formats]

structure Pruned (before after : Disk) (tenantId workloadId : String) (keeps : Placement → Prop) (spec : Option Bytes) :
    Prop where
  placements : ∀ key bytes : Bytes, (after .placements)[key]? = some bytes ↔ (before .placements)[key]? = some bytes ∧
    ∀ placement : Placement, fromBytes bytes = .ok placement → placement.Of tenantId workloadId → keeps placement
  freed : ∀ placement ∈ scanRecords Placement before .placements, placement.Of tenantId workloadId → ¬keeps placement →
    (after .ordinals)[placement.slot.key]? = some (toAllocvec (freedOrdinal placement))
  /-- Every slot that was not cleared keeps its record, those of other workloads among them. -/
  ordinals : ∀ slot : Slot, slot.Plain → (∀ placement ∈ scanRecords Placement before .placements,
      placement.Of tenantId workloadId → ¬keeps placement → placement.slot ≠ slot) →
    (after .ordinals)[slot.key]? = (before .ordinals)[slot.key]?
  spec : (after .workloads)[workloadKey tenantId workloadId]? = spec
  specs : ∀ owner other : String, ':' ∉ owner.toList → (owner ≠ tenantId ∨ other ≠ workloadId) →
    (after .workloads)[workloadKey owner other]? = (before .workloads)[workloadKey owner other]?
  rest : ∀ keyspace, keyspace ∉ [Keyspace.workloads,.placements,.ordinals] → after keyspace = before keyspace

section
variable {disk : Disk} {tenantId workloadId : String} {hit : Placement → Bool}

def clearing (disk : Disk) (tenantId workloadId : String) (hit : Placement → Bool) : List Write :=
  ((scanRecords Placement disk .placements).filter hit).flatMap (freePlacement tenantId workloadId)

theorem clearing_placements (filed : PlacementsFiled disk) {first : Write} (elsewhere : first.table ≠ .placements)
    (key bytes : Bytes) :
    (commit disk (first::clearing disk tenantId workloadId hit) .placements)[key]? = some bytes ↔
      (disk .placements)[key]? = some bytes ∧
        ∀ placement : Placement, fromBytes bytes = .ok placement → hit placement = false := by
  have removed := commit_removes disk .placements (((scanRecords Placement disk .placements).filter hit).map
    fun placement => asBytes placement.podId) key
  rw [List.map_map] at removed
  rw [clearing,freed_placements disk first elsewhere]
  refine (congrArg (· = some bytes) removed).to_iff.trans ?_
  have named := mem_podKeys filed hit key
  split
  case isTrue member =>
    obtain ⟨found,stored,placement,decoded,struck⟩ := named.mp member
    refine iff_of_false nofun fun ⟨same,spared⟩ => ?_
    cases stored.symm.trans same
    rw [spared placement decoded] at struck
    cases struck
  case isFalse absent =>
    refine ⟨fun stored => ⟨stored,fun placement decoded => ?_⟩,And.left⟩
    rw [← Bool.not_eq_true]
    exact fun struck => absent (named.mpr ⟨bytes,stored,placement,decoded,struck⟩)

theorem clearing_ordinal (own : ∀ placement, hit placement = true → placement.Of tenantId workloadId)
    (member : write ∈ clearing disk tenantId workloadId hit) (table : write.table = .ordinals) :
    ∃ placement ∈ scanRecords Placement disk .placements, hit placement = true ∧
      write = put .ordinals placement.slot.key (freedOrdinal placement) := by
  obtain ⟨placement,inside,made⟩ := mem_flatMap.mp member
  obtain ⟨listed,struck⟩ := mem_filter.mp inside
  obtain ⟨rfl,rfl⟩ := own placement struck
  rcases mem_cons.mp made with rfl | made
  · cases table
  · exact ⟨placement,listed,struck,mem_singleton.mp made⟩

section
variable {first : Write} (elsewhere : first.table ≠ .ordinals)
  (own : ∀ placement, hit placement = true → placement.Of tenantId workloadId)
include elsewhere own

theorem clearing_freed (listed : placement ∈ scanRecords Placement disk .placements) (struck : hit placement = true)
    (apart : ∀ other ∈ scanRecords Placement disk .placements, hit other = true →
      other.slot.key = placement.slot.key → other.slot = placement.slot) :
    (commit disk (first::clearing disk tenantId workloadId hit) .ordinals)[placement.slot.key]? =
      some (toAllocvec (freedOrdinal placement)) := by
  apply commit_lookup_agreed
  · intro write member ordinals sameKey
    rcases mem_cons.mp member with rfl | cleared
    · exact absurd ordinals elsewhere
    · obtain ⟨other,inside,also,rfl⟩ := clearing_ordinal own cleared ordinals
      have slot := apart other inside also sameKey
      have freed : freedOrdinal other = freedOrdinal placement := congrArg Slot.freed slot
      rw [put,slot,freed]
  · refine mem_cons_of_mem _ (mem_flatMap.mpr ⟨placement,mem_filter.mpr ⟨listed,struck⟩,?_⟩)
    obtain ⟨rfl,rfl⟩ := own placement struck
    exact mem_cons_of_mem _ (mem_singleton.mpr rfl)

theorem clearing_spared (spared : ∀ placement ∈ scanRecords Placement disk .placements,
      hit placement = true → placement.slot.key ≠ key) :
    (commit disk (first::clearing disk tenantId workloadId hit) .ordinals)[key]? = (disk .ordinals)[key]? := by
  apply commit_lookup_other
  intro write member ordinals
  rcases mem_cons.mp member with rfl | cleared
  · exact absurd ordinals elsewhere
  · obtain ⟨placement,listed,struck,rfl⟩ := clearing_ordinal own cleared ordinals
    exact spared placement listed struck

end

theorem clearing_prunes (filed : PlacementsFiled disk) {keeps : Placement → Prop}
    (chosen : ∀ placement : Placement, hit placement = true ↔ placement.Of tenantId workloadId ∧ ¬keeps placement)
    (tenant : ':' ∉ tenantId.toList) (workload : ':' ∉ workloadId.toList) (first : Write) (table : first.table = .workloads)
    (named : first.key = workloadKey tenantId workloadId) :
    Pruned disk (commit disk (first::clearing disk tenantId workloadId hit)) tenantId workloadId keeps
      (first.on (disk .workloads))[workloadKey tenantId workloadId]? := by
  have own : ∀ placement, hit placement = true → placement.Of tenantId workloadId :=
    fun placement struck => ((chosen placement).mp struck).1
  have plain : ∀ placement : Placement, placement.Of tenantId workloadId → placement.slot.Plain := by
    rintro placement ⟨rfl,rfl⟩
    exact ⟨tenant,workload⟩
  have within : ∀ write ∈ clearing disk tenantId workloadId hit, write.table ∈ [Keyspace.placements,.ordinals] :=
    within_freed tenantId workloadId _
  have workloads : commit disk (first::clearing disk tenantId workloadId hit) .workloads = first.on (disk .workloads) :=
    Ledger.commit_freed disk table _ _ _
  constructor
  · intro key bytes
    rw [clearing_placements filed (by simp [table])]
    refine and_congr_right fun _ => forall_congr' fun placement => forall_congr' fun _ => ?_
    rw [← Bool.not_eq_true,chosen]
    tauto
  · intro placement listed mine gone
    apply clearing_freed (by simp [table]) own listed ((chosen placement).mpr ⟨mine,gone⟩)
    intro other _ also
    exact ordinalKey_injective (plain other (own other also)) (plain placement mine)
  · intro slot other spared
    apply clearing_spared (by simp [table]) own
    intro placement listed struck sameKey
    obtain ⟨mine,gone⟩ := (chosen placement).mp struck
    exact spared placement listed mine gone (ordinalKey_injective (plain placement mine) other sameKey)
  · rw [workloads]
  · intro owner other apart different
    rw [workloads,on_lookup_other]
    rw [named]
    intro same
    obtain ⟨rfl,rfl⟩ := workloadKey_injective tenant apart same
    simp at different
  · intro keyspace outside
    apply commit_frame
    intro write member named
    subst named
    rcases mem_cons.mp member with rfl | cleared
    · simp [table] at outside
    · have inside := within write cleared
      simp only [mem_cons,not_mem_nil,or_false] at inside outside
      tauto

end

theorem scaleWorkload_prunes (filed : PlacementsFiled disk) {record : WorkloadSpecRecord}
    (decoded : decodeWorkloadSpec record.specBytes = .ok spec) (tenant : ':' ∉ record.tenantId.toList)
    (workload : ':' ∉ record.workloadId.toList) :
    Pruned disk (commit disk (scaleWorkload disk record)) record.tenantId record.workloadId
      (fun placement => ∃ count, spec.replicas[placement.role]? = some count ∧ placement.ordinal < count)
      (some (toAllocvec record)) := by
  have chosen : ∀ placement : Placement, (placement.tenantId = record.tenantId && placement.service = record.workloadId &&
        shouldRemove (newReplicas record) placement) = true ↔ placement.Of record.tenantId record.workloadId ∧
      ¬∃ count, spec.replicas[placement.role]? = some count ∧ placement.ordinal < count := by
    intro placement
    rw [newReplicas,decoded,Bool.and_eq_true,shouldRemove_iff,Bool.and_eq_true,decide_eq_true_iff,decide_eq_true_iff]
    rfl
  have pruned := clearing_prunes filed chosen tenant workload
    (put .workloads (workloadKey record.tenantId record.workloadId) record) rfl rfl
  have stored : ((put .workloads (workloadKey record.tenantId record.workloadId) record).on (disk .workloads))[
      workloadKey record.tenantId record.workloadId]? = some (toAllocvec record) := ExtTreeMap.getElem?_insert_self
  rw [stored] at pruned
  exact pruned

theorem deleteWorkload_prunes (filed : PlacementsFiled disk) {tenantId workloadId : String}
    (tenant : ':' ∉ tenantId.toList) (workload : ':' ∉ workloadId.toList) :
    Pruned disk (commit disk (deleteWorkload disk tenantId workloadId)) tenantId workloadId (fun _ => False) none := by
  have chosen : ∀ placement : Placement, (placement.tenantId = tenantId && placement.service = workloadId) = true ↔
      placement.Of tenantId workloadId ∧ ¬False := by
    intro placement
    rw [Bool.and_eq_true,decide_eq_true_iff,decide_eq_true_iff]
    exact (and_iff_left not_false).symm
  have pruned := clearing_prunes filed chosen tenant workload (.remove .workloads (workloadKey tenantId workloadId)) rfl rfl
  have gone : ((.remove .workloads (workloadKey tenantId workloadId) : Write).on (disk .workloads))[
      workloadKey tenantId workloadId]? = none := ExtTreeMap.getElem?_erase_self
  rw [gone] at pruned
  exact pruned

/-- Scaling keeps the roles and ordinals that are asked for, deletion none. -/
theorem scale_and_delete_clear_slots {disk : Disk} (filed : PlacementsFiled disk) :
    (∀ (record : WorkloadSpecRecord) (spec : WorkloadSpec), decodeWorkloadSpec record.specBytes = .ok spec →
      ':' ∉ record.tenantId.toList → ':' ∉ record.workloadId.toList →
      ∃ writes, applyCommand disk (.scaleWorkload record) = .ok (writes,.schedulingUpdate) ∧
        Pruned disk (commit disk writes) record.tenantId record.workloadId
          (fun placement => ∃ count, spec.replicas[placement.role]? = some count ∧ placement.ordinal < count)
          (some (toAllocvec record))) ∧
    ∀ tenantId workloadId : String, ':' ∉ tenantId.toList → ':' ∉ workloadId.toList →
      ∃ writes, applyCommand disk (.deleteWorkload tenantId workloadId) = .ok (writes,.schedulingUpdate) ∧
        Pruned disk (commit disk writes) tenantId workloadId (fun _ => False) none := by
  constructor
  · intro record spec decoded tenant workload
    exact ⟨_,rfl,scaleWorkload_prunes filed decoded tenant workload⟩
  · intro tenantId workloadId tenant workload
    exact ⟨_,rfl,deleteWorkload_prunes filed tenant workload⟩

def OnePerSlot (disk : Disk) : Prop :=
  ∀ left ∈ scanRecords Placement disk .placements, ∀ right ∈ scanRecords Placement disk .placements,
    left.slot = right.slot → left = right

def Placement.assignedTo (placement : Placement) (podId : String) : OrdinalAssignment :=
  { freedOrdinal placement with
    currentPodId := some podId, currentNodeId := some (display placement.nodeId) }

def renamed (placement : Placement) (newPodId : String) : List Write :=
  [.remove .placements (asBytes placement.podId),
    put .placements (asBytes newPodId) { placement with podId := newPodId },
    put .ordinals placement.slot.key (placement.assignedTo newPodId)]

theorem find_slot : ((scanRecords Placement disk .placements).find? fun placement =>
      placement.tenantId = slot.tenantId && placement.service = slot.workloadId && placement.role = slot.role &&
        placement.ordinal = slot.ordinal) =
    (scanRecords Placement disk .placements).find? fun placement => placement.slot = slot := by
  congr 1
  funext placement
  cases slot
  simp [Placement.slot,Bool.and_assoc]

theorem reassignPodId_found (single : OnePerSlot disk) (placed : placement ∈ scanRecords Placement disk .placements) :
    reassignPodId disk placement.slot.tenantId placement.slot.workloadId placement.slot.role placement.slot.ordinal newPodId =
      renamed placement newPodId := by
  rw [reassignPodId,find_slot]
  cases found : (scanRecords Placement disk .placements).find? fun other => other.slot = placement.slot with
  | none => simpa using List.find?_eq_none.mp found placement placed
  | some other =>
    have same := single other (List.mem_of_find?_eq_some found) placement placed (by simpa using List.find?_some found)
    subst same
    rfl

theorem reassignPodId_empty (empty : ∀ placement ∈ scanRecords Placement disk .placements, placement.slot ≠ slot) :
    reassignPodId disk slot.tenantId slot.workloadId slot.role slot.ordinal newPodId = [] := by
  have none : (scanRecords Placement disk .placements).find? (fun other => other.slot = slot) = none := by
    rw [List.find?_eq_none]
    intro placement placed
    simpa using empty placement placed
  rw [reassignPodId,find_slot,none]

structure Reassigned (before after : Disk) (placement : Placement) (newPodId : String) : Prop where
  placements : ∀ other, other ∈ scanRecords Placement after .placements ↔
    other = { placement with podId := newPodId } ∨
      other ∈ scanRecords Placement before .placements ∧ other.slot ≠ placement.slot
  filed : PlacementsFiled after
  /-- The record of the slot names the new pod and the same node, and no other record is written. -/
  ordinals : after .ordinals = (before .ordinals).insert placement.slot.key (toAllocvec (placement.assignedTo newPodId))

section
variable {disk : Disk} (filed : PlacementsFiled disk)
include filed

theorem renamed_reassigns (placed : placement ∈ scanRecords Placement disk .placements) (single : OnePerSlot disk)
    (unused : ∀ other ∈ scanRecords Placement disk .placements, other.podId = newPodId → other.slot = placement.slot) :
    Reassigned disk (commit disk (renamed placement newPodId)) placement newPodId := by
  have lookup : ∀ key bytes : Bytes, (commit disk (renamed placement newPodId) .placements)[key]? = some bytes ↔
      key = asBytes newPodId ∧ toAllocvec { placement with podId := newPodId } = bytes ∨
        key ≠ asBytes newPodId ∧ key ≠ asBytes placement.podId ∧ (disk .placements)[key]? = some bytes := by
    intro key bytes
    rw [← erase_eq_some,← insert_eq_some]
    simp [renamed,commit_table,put,Write.on]
  constructor
  · intro other
    rw [mem_scanRecords]
    constructor
    · rintro ⟨key,bytes,stored,decoded⟩
      rcases (lookup key bytes).mp stored with ⟨_,rfl⟩ | ⟨_,apart,kept⟩
      · rw [fromBytes_iff] at decoded
        exact .inl decoded.symm
      · have listed := mem_scanRecords.mpr ⟨key,bytes,kept,decoded⟩
        refine .inr ⟨listed,fun same => apart ?_⟩
        rw [← single other listed placement placed same]
        exact filed key bytes kept other decoded
    · rintro (rfl | ⟨listed,different⟩)
      · exact ⟨_,_,(lookup _ _).mpr (.inl ⟨rfl,rfl⟩),fromBytes_toAllocvec _⟩
      · obtain ⟨bytes,stored,decoded⟩ := filed_key filed listed
        refine ⟨_,bytes,(lookup _ _).mpr (.inr ⟨fun same => ?_,fun same => ?_,stored⟩),decoded⟩
        · exact different (unused other listed (asBytes_injective same))
        · exact different (congrArg Placement.slot (filed_podId filed listed placed (asBytes_injective same)))
  · intro key bytes stored other decoded
    rcases (lookup key bytes).mp stored with ⟨rfl,rfl⟩ | ⟨_,_,kept⟩
    · rw [fromBytes_iff] at decoded
      subst decoded
      rfl
    · exact filed key bytes kept other decoded
  · simp [renamed,commit_table,put,Write.on]

/-- A new pod id that no other slot uses changes nothing but the pod in its slot and the slot's record. -/
theorem new_pod_id_keeps_slot (single : OnePerSlot disk) (slot : Slot) (newPodId : String)
    (unused : ∀ other ∈ scanRecords Placement disk .placements, other.podId = newPodId → other.slot = slot) :
    ∃ writes, applyCommand disk (.reassignPodId slot.tenantId slot.workloadId slot.role slot.ordinal newPodId) =
        .ok (writes,.schedulingUpdate) ∧
      (∀ placement ∈ scanRecords Placement disk .placements, placement.slot = slot →
        Reassigned disk (commit disk writes) placement newPodId) ∧
      ((∀ placement ∈ scanRecords Placement disk .placements, placement.slot ≠ slot) →
        commit disk writes .placements = disk .placements ∧ commit disk writes .ordinals = disk .ordinals) := by
  refine ⟨_,rfl,?_,?_⟩
  · rintro placement placed rfl
    rw [reassignPodId_found single placed]
    exact renamed_reassigns filed placed single unused
  · intro empty
    rw [reassignPodId_empty empty]
    exact ⟨rfl,rfl⟩

end

end

open Reference

def workerPod (ordinal : UInt32) : Placement :=
  ⟨"shop-web-" ++ toString ordinal,"acme","shop","web",ordinal,workerId,⟨500,268435456⟩⟩

def twoPods : Disk := commit Disk.empty [put .placements (asBytes "shop-web-0") (workerPod 0),
  put .placements (asBytes "shop-web-1") (workerPod 1)]

theorem twoPods_lookup (stored : (twoPods .placements)[key]? = some bytes) :
    key = asBytes "shop-web-1" ∧ bytes = toAllocvec (workerPod 1) ∨
      key = asBytes "shop-web-0" ∧ bytes = toAllocvec (workerPod 0) := by
  rcases insert_eq_some.mp stored with ⟨named,rfl⟩ | ⟨_,first⟩
  · exact .inl ⟨named,rfl⟩
  · rcases insert_eq_some.mp first with ⟨named,rfl⟩ | ⟨_,nothing⟩
    · exact .inr ⟨named,rfl⟩
    · simp [Disk.empty] at nothing

theorem twoPods_filed : PlacementsFiled twoPods := by
  intro key bytes stored placement decoded
  rcases twoPods_lookup stored with ⟨rfl,rfl⟩ | ⟨rfl,rfl⟩
  · rw [fromBytes_iff] at decoded
    subst decoded
    decide
  · rw [fromBytes_iff] at decoded
    subst decoded
    decide

theorem second_pod_cleared : PlacementsFiled twoPods ∧
    ∃ writes, applyCommand twoPods (.scaleWorkload ⟨"acme","shop",encodeWorkloadSpec (shopSpec "web" 1),[]⟩) =
        .ok (writes,.schedulingUpdate) ∧
      (commit twoPods writes .ordinals)[(workerPod 1).slot.key]? =
        some (toAllocvec (freedOrdinal (workerPod 1))) := by
  refine ⟨twoPods_filed,?_⟩
  obtain ⟨writes,ok,pruned⟩ := (scale_and_delete_clear_slots twoPods_filed).1
    ⟨"acme","shop",encodeWorkloadSpec (shopSpec "web" 1),[]⟩ (shopSpec "web" 1) (WorkloadMessages.decode_encode _)
    (by decide) (by decide)
  refine ⟨writes,ok,pruned.freed (workerPod 1) (by decide +kernel) ⟨rfl,rfl⟩ ?_⟩
  rintro ⟨count,asked,below⟩
  have one : (shopSpec "web" 1).replicas["web"]? = some 1 := ExtTreeMap.getElem?_insert_self
  cases one.symm.trans asked
  exact absurd below (by decide)

theorem twoPods_single : OnePerSlot twoPods := by
  unfold OnePerSlot
  decide +kernel

theorem first_pod_renamed : PlacementsFiled twoPods ∧ OnePerSlot twoPods ∧
    ∃ writes, applyCommand twoPods (.reassignPodId "acme" "shop" "web" 0 "shop-web-a") = .ok (writes,.schedulingUpdate) ∧
      Reassigned twoPods (commit twoPods writes) (workerPod 0) "shop-web-a" := by
  refine ⟨twoPods_filed,twoPods_single,?_⟩
  obtain ⟨writes,ok,reassigned,_⟩ := new_pod_id_keeps_slot twoPods_filed twoPods_single ⟨"acme","shop","web",0⟩ "shop-web-a"
    (by decide +kernel)
  exact ⟨writes,ok,reassigned (workerPod 0) (by decide +kernel) rfl⟩

end FleetosControl
