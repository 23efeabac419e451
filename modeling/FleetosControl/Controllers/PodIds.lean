import FleetosControl.Admin.Workloads
import FleetosControl.Controllers.Workload
import FleetosControl.Raft.Eviction
import FleetosControl.Watch.StatusService

/-! Which slots a pass tries to fill, and the pod ids that stand for them. A pod id joins workload,
role and ordinal by dashes and leaves the tenant out. -/
namespace FleetosControl
open Wire Trace

section
variable {ε α β : Type} {action : α → Except ε β}

theorem mapM_isOk (action : α → Except ε β) (items : List α) :
    (∃ results, items.mapM action = .ok results) ↔ ∀ item ∈ items, ∃ result, action item = .ok result := by
  induction items with
  | nil => exact ⟨fun _ => by simp,fun _ => ⟨[],rfl⟩⟩
  | cons item items ih =>
    rw [forall_mem_cons,← ih,List.mapM_cons]
    constructor
    · rintro ⟨results,ok⟩
      obtain ⟨result,here,ok⟩ := bind_ok ok
      obtain ⟨rest,later,_⟩ := bind_ok ok
      exact ⟨⟨result,here⟩,rest,later⟩
    · rintro ⟨⟨result,here⟩,rest,later⟩
      exact ⟨result::rest,by rw [here,later]; rfl⟩

theorem mem_mapM {items : List α} (ok : items.mapM action = .ok results) (result : β) :
    result ∈ results ↔ ∃ item ∈ items, action item = .ok result := by
  induction items generalizing results with
  | nil =>
    cases ok
    simp
  | cons item items ih =>
    rw [List.mapM_cons] at ok
    obtain ⟨first,here,ok⟩ := bind_ok ok
    obtain ⟨rest,later,ok⟩ := bind_ok ok
    cases ok
    simp [ih later,here,eq_comm]

end

/-- The slots that some specifications ask for: every ordinal below a role's replica count. -/
def Desired (specs : List WorkloadSpec) (slot : Slot) : Prop :=
  ∃ spec ∈ specs, slot.tenantId = spec.tenantId ∧ slot.workloadId = spec.workloadId ∧
    ∃ count, spec.replicas[slot.role]? = some count ∧ slot.ordinal < count

section
variable {spec : WorkloadSpec} {slot : Slot}

theorem mem_slots : slot ∈ spec.slots ↔ slot.tenantId = spec.tenantId ∧ slot.workloadId = spec.workloadId ∧
      ∃ count, spec.replicas[slot.role]? = some count ∧ slot.ordinal < count := by
  simp only [WorkloadSpec.slots,mem_flatMap,Prod.exists,Std.ExtTreeMap.mem_toList_iff_getElem?_eq_some,
    mem_map,List.mem_range]
  constructor
  · rintro ⟨role,count,found,ordinal,below,rfl⟩
    refine ⟨rfl,rfl,count,found,UInt32.lt_iff_toNat_lt.mpr ?_⟩
    have bounded := count.toNat_lt
    rw [UInt32.toNat_ofNat',Nat.mod_eq_of_lt (by omega)]
    exact below
  · rintro ⟨tenant,workload,count,found,below⟩
    refine ⟨slot.role,count,found,slot.ordinal.toNat,UInt32.lt_iff_toNat_lt.mp below,?_⟩
    obtain ⟨tenantId,workloadId,role,ordinal⟩ := slot
    simp only at tenant workload
    simp [tenant,workload]

open WorkloadController OrdinalTracker

theorem mem_desired : (spec,slot) ∈ desired specs ↔ spec ∈ specs ∧ slot ∈ spec.slots := by
  simp [desired]

theorem pendingPod_slot (inside : slot ∈ spec.slots) : (pendingPod spec slot).slot = slot := by
  obtain ⟨tenant,workload,_⟩ := mem_slots.mp inside
  obtain ⟨tenantId,workloadId,role,ordinal⟩ := slot
  simp only at tenant workload
  rw [tenant,workload]
  rfl

section
variable [FleetosCore] [Formats] {storage : Disk} {state : ClusterState} {spec : WorkloadSpec} {slot : Slot}
  {specs : List WorkloadSpec} {pending : List PendingPod}

def Placed (storage : Disk) (slot : Slot) : Prop :=
  ∃ placement ∈ scanRecords Placement storage .placements, placement.slot = slot

instance (storage : Disk) (slot : Slot) : Decidable (Placed storage slot) :=
  inferInstanceAs (Decidable (∃ placement ∈ scanRecords Placement storage .placements, _ = _))

theorem pendingAt_ok :
    (∃ found, pendingAt storage state spec slot = .ok found) ↔ ∃ existing, getAssignment storage slot = .ok existing := by
  unfold pendingAt
  cases getAssignment storage slot with
  | error e => simp [Bind.bind,Except.bind]
  | ok existing =>
    simp only [Bind.bind,Except.bind]
    refine ⟨fun _ => ⟨existing,rfl⟩,fun _ => ?_⟩
    split
    · exact ⟨none,rfl⟩
    · split
      · exact ⟨none,rfl⟩
      · exact ⟨some _,rfl⟩

theorem pendingAt_some : pendingAt storage state spec slot = .ok (some pod) ↔
      getAssignment storage slot = .ok none ∧ pod = pendingPod spec slot := by
  unfold pendingAt
  cases getAssignment storage slot with
  | error e => simp [Bind.bind,Except.bind]
  | ok existing =>
    cases existing with
    | none => simp [Bind.bind,Except.bind,Pure.pure,Except.pure,eq_comm]
    | some assignment =>
      simp only [Bind.bind,Except.bind,Except.ok.injEq,reduceCtorEq,false_and,iff_false]
      split <;> simp [Pure.pure,Except.pure]

theorem collectPending_ok (ok : collectPending storage state specs = .ok pending) (pod : PendingPod) :
    pod ∈ pending ↔ ∃ spec ∈ specs, ∃ slot ∈ spec.slots, getAssignment storage slot = .ok none ∧
      pod = pendingPod spec slot := by
  obtain ⟨found,collected,ok⟩ := bind_ok ok
  cases ok
  rw [mem_filterMap]
  simp only [id_eq,exists_eq_right,mem_mapM collected,Prod.exists,mem_desired,pendingAt_some,and_assoc]
  constructor
  · rintro ⟨spec,slot,member,inside,made⟩
    exact ⟨spec,member,slot,inside,made⟩
  · rintro ⟨spec,member,slot,inside,made⟩
    exact ⟨spec,slot,member,inside,made⟩

theorem collectPending_isOk : (∃ pending, collectPending storage state specs = .ok pending) ↔
      ∀ spec ∈ specs, ∀ slot ∈ spec.slots, ∃ existing, getAssignment storage slot = .ok existing := by
  have each := mapM_isOk (fun wanted : WorkloadSpec × Slot => pendingAt storage state wanted.1 wanted.2) (desired specs)
  simp only [Prod.forall,mem_desired,pendingAt_ok,and_imp] at each
  constructor
  · rintro ⟨pending,ok⟩ spec member slot inside
    obtain ⟨found,collected,_⟩ := bind_ok ok
    exact each.mp ⟨found,collected⟩ spec slot member inside
  · intro readable
    obtain ⟨found,collected⟩ := each.mpr (fun spec slot member => readable spec member slot)
    exact ⟨found.filterMap id,by rw [collectPending,collected]; rfl⟩

theorem pending_slot_iff (ok : collectPending storage state specs = .ok pending) (slot : Slot) :
    (∃ pod ∈ pending, pod.slot = slot) ↔ Desired specs slot ∧ getAssignment storage slot = .ok none := by
  simp only [collectPending_ok ok]
  constructor
  · rintro ⟨_,⟨spec,member,found,inside,free,rfl⟩,rfl⟩
    rw [pendingPod_slot inside]
    exact ⟨⟨spec,member,mem_slots.mp inside⟩,free⟩
  · rintro ⟨⟨spec,member,wanted⟩,free⟩
    have inside := mem_slots.mpr wanted
    exact ⟨_,⟨spec,member,slot,inside,free,rfl⟩,pendingPod_slot inside⟩

/-- Exactly if the ordinal records can be read and are those of the slots with a placement. -/
theorem pending_are_unplaced_iff (storage : Disk) (specs : List WorkloadSpec) :
    (∃ pending, collectPending storage (buildClusterState storage) specs = .ok pending ∧
      ∀ slot, (∃ pod ∈ pending, pod.slot = slot) ↔ Desired specs slot ∧ ¬Placed storage slot) ↔
    ∀ slot, Desired specs slot → ∃ existing, getAssignment storage slot = .ok existing ∧
      (existing.isSome ↔ Placed storage slot) := by
  constructor
  · rintro ⟨pending,ok,exact⟩ slot ⟨spec,member,wanted⟩
    obtain ⟨existing,read⟩ := collectPending_isOk.mp ⟨pending,ok⟩ spec member slot (mem_slots.mpr wanted)
    have tried := (pending_slot_iff ok slot).symm.trans (exact slot)
    rw [read,Except.ok.injEq] at tried
    refine ⟨existing,read,?_⟩
    have desired : Desired specs slot := ⟨spec,member,wanted⟩
    cases existing with
    | none => simpa [desired] using tried
    | some assignment => simpa [desired] using tried
  · intro tracked
    have readable : ∀ spec ∈ specs, ∀ slot ∈ spec.slots, ∃ existing, getAssignment storage slot = .ok existing := by
      intro spec member slot inside
      obtain ⟨existing,read,_⟩ := tracked slot ⟨spec,member,mem_slots.mp inside⟩
      exact ⟨existing,read⟩
    obtain ⟨pending,ok⟩ := collectPending_isOk.mpr readable
    refine ⟨pending,ok,fun slot => (pending_slot_iff ok slot).trans (and_congr_right fun desired => ?_)⟩
    obtain ⟨existing,read,known⟩ := tracked slot desired
    rw [read,Except.ok.injEq,← known]
    cases existing <;> simp

end

section
open Reference

def evictedWorker : Node :=
  (apply (reconciled (clusterOf [workerNode workerId 500 536870912 "zone-a"]) 3 [shopSpec "web" 1]).2
    [commandAt 6 (.evictNode workerId.1 1700086400)]).1

theorem evicted_slot_not_retried : Desired [shopSpec "web" 1] ⟨"acme","shop","web",0⟩ ∧
    ¬Placed evictedWorker.disk ⟨"acme","shop","web",0⟩ ∧
    collectPending evictedWorker.disk (buildClusterState evictedWorker.disk) [shopSpec "web" 1] = .ok [] := by
  refine ⟨⟨_,mem_singleton_self _,rfl,rfl,1,by decide,by decide⟩,by decide +kernel,by decide +kernel⟩

end

end

open KeyValue

def Slot.Shifted (slot other : Slot) : Prop :=
  ∃ between, other.workloadId = slot.workloadId ++ "-" ++ between ∧ slot.role = between ++ "-" ++ other.role

def Slot.Collides (slot other : Slot) : Prop :=
  slot.ordinal = other.ordinal ∧
    (slot.workloadId = other.workloadId ∧ slot.role = other.role ∨ slot.Shifted other ∨ other.Shifted slot)

theorem dash_not_mem_ordinal (ordinal : UInt32) : '-' ∉ (toString ordinal).toList :=
  Separated.dash_not_mem_repr ordinal.toNat

theorem toString_ordinal_inj {left right : UInt32} : toString left = toString right ↔ left = right := by
  constructor
  · intro same
    exact UInt32.toNat.inj (Nat.repr_inj.mp same)
  · exact congrArg toString

theorem podId_toList (slot : Slot) :
    slot.podId.toList = (slot.workloadId.toList ++ '-'::slot.role.toList) ++ '-'::(toString slot.ordinal).toList := by
  simp [Slot.podId,String.toList_append]

theorem shifted_iff (slot other : Slot) : slot.Shifted other ↔
    Separated.Shifted '-' slot.workloadId.toList slot.role.toList other.workloadId.toList other.role.toList := by
  constructor
  · rintro ⟨between,workload,role⟩
    exact ⟨between.toList,by simp [workload,String.toList_append],by simp [role,String.toList_append]⟩
  · rintro ⟨between,workload,role⟩
    refine ⟨String.ofList between,String.toList_inj.mp ?_,String.toList_inj.mp ?_⟩
    · simpa [String.toList_append] using workload
    · simpa [String.toList_append] using role

/-- Which slots share a pod id: the tenant plays no part, and a dash may belong to either name. -/
theorem podId_eq_iff (slot other : Slot) : slot.podId = other.podId ↔ slot.Collides other := by
  rw [← String.toList_inj,podId_toList,podId_toList,
    Separated.join_inj_last (dash_not_mem_ordinal _) (dash_not_mem_ordinal _),Separated.join_eq_iff,String.toList_inj,
    String.toList_inj,String.toList_inj,toString_ordinal_inj,← shifted_iff,← shifted_iff,and_comm]
  rfl

example : (⟨"acme","shop","db-web",0⟩ : Slot).podId = (⟨"acme","shop-db","web",0⟩ : Slot).podId := by decide

section
variable [FleetosCore] [Formats] {node : Node}

def Keyed (disk : Disk) : Prop :=
  ∀ (key bytes : Bytes) (placement : Placement), (disk .placements)[key]? = some bytes →
    fromBytes bytes = .ok placement → key = asBytes placement.slot.podId ∧ placement.podId = placement.slot.podId

def Entry.NamesPods [Merges] (entry : Entry) : Prop :=
  entry.Proposable ∧ ∀ audited, entry.payload = .normal audited →
    (∀ record, audited.cmd = .commitPlacement record → record.podId = record.slot.podId) ∧
      ∀ tenantId service role ordinal newPodId, audited.cmd = .reassignPodId tenantId service role ordinal newPodId →
        newPodId = (⟨tenantId,service,role,ordinal⟩ : Slot).podId

theorem keyed_step [Merges] (advances : Advances before entry after) (formats : entry.NamesPods)
    (keyed : Keyed before.disk) : Keyed after.disk := by
  intro key bytes placement stored decoded
  rcases advances.placement formats.1 stored decoded with earlier | ⟨audited,normal,rfl,placed | ⟨found,_,same,renamed⟩⟩
  · exact keyed key bytes placement earlier decoded
  · have own := (formats.2 audited normal).1 placement placed
    exact ⟨by rw [own],own⟩
  · have slot : placement.slot = found.slot := by rw [same]; rfl
    have own : placement.podId = found.slot.podId := (formats.2 audited normal).2 _ _ _ _ _ renamed
    rw [slot]
    exact ⟨by rw [own],own⟩

def Reached [Merges] (node : Node) : Prop :=
  ∃ trace, Run Advances (boot Disk.empty) trace node ∧ ∀ transition ∈ trace, transition.label.NamesPods

theorem run_keyed [Merges] (run : Run Advances (boot Disk.empty) trace node)
    (formats : ∀ transition ∈ trace, transition.label.NamesPods) :
    (∀ transition ∈ trace, Keyed transition.before.disk ∧ Keyed transition.after.disk) ∧ Keyed node.disk := by
  refine run.invariant (fun node => Keyed node.disk) (fun transition => transition.label.NamesPods) ?_ ?_ formats
  · intro before entry after advances made keyed
    exact keyed_step advances made keyed
  · intro key bytes placement stored
    simp [Disk.empty] at stored

theorem Reached.keyed [Merges] (reached : Reached node) : Keyed node.disk := by
  obtain ⟨trace,run,formats⟩ := reached
  exact (run_keyed run formats).2

inductive Concerns (slot : Slot) : FleetosCommand → Prop where
  | placed (record : Placement) : record.slot = slot → record.podId = slot.podId → Concerns slot (.commitPlacement record)
  | reassigned : Concerns slot (.reassignPodId slot.tenantId slot.workloadId slot.role slot.ordinal slot.podId)
  | reported (record : WorkloadStatusRecord) : record.podId = slot.podId → Concerns slot (.upsertWorkloadStatus record)

def Entry.ActsOn (entry : Entry) (slot : Slot) : Prop :=
  ∃ audited, entry.payload = .normal audited ∧ Concerns slot audited.cmd

def Undisturbed (slot : Slot) (before after : Disk) : Prop :=
  (after .placements)[asBytes slot.podId]? = (before .placements)[asBytes slot.podId]? ∧
    (after .workloadStatus)[asBytes slot.podId]? = (before .workloadStatus)[asBytes slot.podId]?

structure Separate [Merges] (slot other : Slot) : Prop where
  podIds : slot.podId ≠ other.podId
  entries : ∀ before entry after, Reached before → Advances before entry after → entry.ActsOn slot →
    Undisturbed other before.disk after.disk
  metrics : ∀ (store : MetricsStore) placements now (metrics : PodMetrics) accepted kept, metrics.podId = slot.podId →
    store.report placements now metrics = .ok (accepted,kept) → kept.getWindows other.podId = store.getWindows other.podId

theorem concerns_writes (keyed : Keyed disk) (concerns : Concerns slot cmd)
    (ok : applyCommand disk cmd = .ok (writes,kind)) :
    ∀ write ∈ writes, write.table = .placements ∨ write.table = .workloadStatus → write.key = asBytes slot.podId := by
  cases concerns with
  | placed record _ own =>
    cases ok
    simp [put,Write.key,own]
  | reported record own =>
    cases ok
    simp [upsertWorkloadStatus,put,Write.key,own]
  | reassigned =>
    cases ok
    intro write member table
    unfold reassignPodId at member
    simp only at member
    split at member
    case h_2 => cases member
    case h_1 found first =>
      have same := List.find?_some first
      simp only [Bool.and_eq_true,decide_eq_true_eq] at same
      obtain ⟨key,bytes,stored,decoded⟩ := mem_scanRecords.mp (List.mem_of_find?_eq_some first)
      have own : found.podId = slot.podId := by
        rw [(keyed key bytes found stored decoded).2]
        obtain ⟨⟨⟨tenant,service⟩,role⟩,ordinal⟩ := same
        simp only [Placement.slot,Slot.podId,service,role,ordinal]
      simp only [mem_cons,not_mem_nil,or_false] at member
      rcases member with rfl | rfl | rfl
      · exact congrArg asBytes own
      · rfl
      · simp [put] at table

/-- Two slots leave each other alone if and only if their ids do not read the same. -/
theorem slots_separate_iff [Merges] (slot other : Slot) : Separate slot other ↔ ¬slot.Collides other := by
  rw [← podId_eq_iff]
  constructor
  · exact Separate.podIds
  · intro distinct
    refine ⟨distinct,?_,?_⟩
    · rintro before entry after reached advances ⟨audited,normal,concerns⟩
      obtain ⟨writes,kind,ok,contents⟩ := advances.applied normal
      have keys := concerns_writes reached.keyed concerns ok
      have elsewhere : asBytes slot.podId ≠ asBytes other.podId := by simpa using distinct
      refine ⟨?_,?_⟩
      · rw [contents .placements rfl]
        exact commit_lookup_other _ _ fun write member table => keys write member (.inl table) ▸ elsewhere
      · rw [contents .workloadStatus rfl]
        exact commit_lookup_other _ _ fun write member table => keys write member (.inr table) ▸ elsewhere
    · intro store placements now metrics accepted kept own ok
      exact MetricsStore.report_other ok (own ▸ fun same => distinct same.symm)

end

open Reference

def shopOf (tenantId : String) : WorkloadSpec := { shopSpec "web" 1 with tenantId := tenantId }

def twoTenants : Node :=
  (apply (clusterOf [workerNode workerId 1000 1073741824 "zone-a"])
    [commandAt 3 (.createTenant ⟨"beta",0,[]⟩ ⟨"beta",0xF0000010,16,0⟩)]).1

def acmePlaced : Node := (reconciled twoTenants 4 [shopOf "acme"]).2

def betaPlaced : Node := (reconciled acmePlaced 7 [shopOf "acme",shopOf "beta"]).2

/-- Both tenants may submit a workload of that name, and placing the pod of the second removes that of the first. -/
theorem other_tenant_pod_replaced :
    ((adminServer twoTenants.disk).submitWorkloadSpec fleetctlProxy "req-1" (shopOf "acme")).isOk ∧
    ((adminServer twoTenants.disk).submitWorkloadSpec fleetctlProxy "req-2" (shopOf "beta")).isOk ∧
    Placed acmePlaced.disk ⟨"acme","shop","web",0⟩ ∧ ¬Placed acmePlaced.disk ⟨"beta","shop","web",0⟩ ∧
    ¬Placed betaPlaced.disk ⟨"acme","shop","web",0⟩ ∧ Placed betaPlaced.disk ⟨"beta","shop","web",0⟩ := by
  refine ⟨?_,?_,?_,?_,?_,?_⟩ <;> decide +kernel

end FleetosControl
