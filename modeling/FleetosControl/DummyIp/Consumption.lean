import FleetosControl.Controllers.Isolation

/-! How much of a block has been used. Its offset only ever grows, and nothing gives an address back
when its workload goes. -/
namespace FleetosControl
open KeyValue Trace Allocation WorkloadController

theorem readEntry_error {α : Type} [Postcard α] (failed : readEntry α storage key = .error e) :
    ∃ source, e = .serialization source := by
  unfold readEntry at failed
  split at failed
  case h_2 => cases failed
  case h_1 bytes _ =>
    cases decoded : fromBytes (α := α) bytes with
    | ok value => simp [decoded,Except.mapError,Except.map] at failed
    | error source =>
      simp only [decoded,Except.mapError,Except.map,Except.error.injEq] at failed
      exact ⟨source,failed.symm⟩

theorem nextOffset_toNat {held} {pools : AddressPools allocator} (holds : pools.held tenantId = some held) :
    (allocator.block tenantId held).nextOffset.toNat = held.next := by
  have limit := pools.next_le holds
  have small := allocator.size_lt
  rw [DummyIpAllocator.block,UInt32.toNat_ofNat']
  exact Nat.mod_eq_of_lt (by omega)

section
variable [FleetosCore] [Formats] {tenantId role : String} {disk storage : Disk} {specs : List WorkloadSpec}
  {allocator : DummyIpAllocator} {live : ServicePlace → Prop} {before after : Node}

def servicePlaces (disk : Disk) : List ServicePlace :=
  (serviceRoles (decodedWorkloads disk)).map fun named => ⟨named.1,named.2.1,named.2.2⟩

def livePairs (disk : Disk) (tenantId : String) : List ServicePlace :=
  ((servicePlaces disk).filter (·.tenantId = tenantId)).dedup

theorem mem_livePairs : place ∈ livePairs disk tenantId ↔ place ∈ servicePlaces disk ∧ place.tenantId = tenantId := by
  simp [livePairs]

theorem servicePlaces_congr (same : left .workloads = right .workloads) :
    servicePlaces left = servicePlaces right := by
  simp only [servicePlaces,decodedWorkloads,listWorkloads,scanRecords,same]

theorem mem_servicePlaces (stored : ∀ spec ∈ specs, spec ∈ decodedWorkloads disk)
    (named : (tenantId,workloadId,role) ∈ serviceRoles specs) :
    (⟨tenantId,workloadId,role⟩ : ServicePlace) ∈ servicePlaces disk := by
  obtain ⟨spec,member,inside⟩ := mem_flatMap.mp named
  exact mem_map.mpr ⟨_,mem_flatMap.mpr ⟨spec,stored spec member,inside⟩,rfl⟩

/-- Offsets are those of stored service roles, and a block in which these fit refuses none. -/
structure ConsumptionBounded (disk : Disk) : Prop where
  consumed : ∀ {tenantId : String} {block : TenantBlock}, getTenantBlock disk tenantId = .ok (some block) →
    block.nextOffset.toNat ≤ (livePairs disk tenantId).length
  granted : ∀ {place : ServicePlace} {block : TenantBlock}, place ∈ servicePlaces disk →
    getTenantBlock disk place.tenantId = .ok (some block) →
    (livePairs disk place.tenantId).length ≤ block.maxHosts.toNat →
    computeServiceAddressAllocation disk place.tenantId place.service place.role ≠
      .error (.serviceSpaceExhausted place.tenantId)

theorem computeServiceAddressAllocation_exhausted
    (failed : computeServiceAddressAllocation storage tenantId service role = .error (.serviceSpaceExhausted owner)) :
    (storage .dummyIps)[serviceAddressKey tenantId service role]? = none ∧
      ∃ block, getTenantBlock storage tenantId = .ok (some block) ∧ block.maxHosts ≤ block.nextOffset := by
  unfold computeServiceAddressAllocation at failed
  cases read : getServiceAddress storage tenantId service role with
  | error e =>
    obtain ⟨source,rfl⟩ := readEntry_error read
    simp [read,bind,Except.bind] at failed
  | ok found =>
    cases held : getTenantBlock storage tenantId with
    | error e =>
      obtain ⟨source,rfl⟩ := readEntry_error held
      cases found <;> simp [read,held,bind,Except.bind] at failed
    | ok stored =>
      cases found with
      | some existing => cases stored <;> simp [read,held,bind,Except.bind] at failed
      | none =>
        refine ⟨readEntry_none.mp read,?_⟩
        cases stored with
        | none => simp [read,held,bind,Except.bind] at failed
        | some block =>
          refine ⟨block,rfl,?_⟩
          by_contra room
          simp [read,held,bind,Except.bind,room] at failed

section
variable {allocator : DummyIpAllocator} {live : ServicePlace → Prop} {disk after : Disk} {tenantId : String}
  {block : TenantBlock}

def Accounted (allocator : DummyIpAllocator) (live : ServicePlace → Prop) (disk : Disk) : Prop :=
  ∃ pools : AddressPools allocator, Represents pools disk ∧ pools.Full ∧
    ∀ place offset, pools.lease place = some offset → live place

theorem accounted_empty (empty : disk .dummyIps = ∅) : Accounted allocator live disk := by
  refine ⟨Pools.empty,represents_empty empty,Pools.full_empty,?_⟩
  intro place offset leased
  cases leased

theorem accounted_congr (same : left .dummyIps = right .dummyIps) (accounted : Accounted allocator live left) :
    Accounted allocator live right := by
  obtain ⟨pools,represents,rest⟩ := accounted
  exact ⟨pools,represents_congr same represents,rest⟩

theorem Accounted.mono {alive : ServicePlace → Prop} (accounted : Accounted allocator live disk)
    (kept : ∀ place address, HoldsAddress disk place address → live place → alive place) :
    Accounted allocator alive disk := by
  obtain ⟨pools,represents,full,inside⟩ := accounted
  refine ⟨pools,represents,full,?_⟩
  intro place offset leased
  obtain ⟨address,held⟩ := represents.leased leased
  exact kept place address held (inside place offset leased)

theorem Accounted.bounded (accounted : Accounted allocator (· ∈ servicePlaces disk) disk) :
    ConsumptionBounded disk := by
  obtain ⟨pools,represents,full,inside⟩ := accounted
  constructor
  · intro tenantId block found
    obtain ⟨held,holds,rfl⟩ := represents.block.mp found
    rw [nextOffset_toNat holds]
    exact full.next_le_length holds fun place offset mine leased => mem_livePairs.mpr ⟨inside place offset leased,mine⟩
  · intro place block live found fits failed
    obtain ⟨absent,stored,same,full'⟩ := computeServiceAddressAllocation_exhausted failed
    cases found.symm.trans same
    obtain ⟨held,holds,rfl⟩ := represents.block.mp found
    -- the place itself has no address yet, so the others account for every offset
    have free := represents.unleased absent
    have listed : place ∈ livePairs disk place.tenantId := mem_livePairs.mpr ⟨live,rfl⟩
    have others : held.next ≤ ((livePairs disk place.tenantId).erase place).length := by
      refine full.next_le_length holds fun other offset mine leased => ?_
      have different : other ≠ place := by
        rintro rfl
        cases free.symm.trans leased
      exact (List.mem_erase_of_ne different).mpr (mem_livePairs.mpr ⟨inside other offset leased,mine⟩)
    have positive := List.length_pos_of_mem listed
    have taken := UInt32.le_iff_toNat_le.mp full'
    rw [nextOffset_toNat holds] at taken
    rw [List.length_erase_of_mem listed] at others
    omega

theorem Accounted.open (accounted : Accounted allocator live disk)
    (ok : allocator.computeTenantBlockAllocation disk tenantId = .ok block)
    (written : after .dummyIps = (disk .dummyIps).insert (tenantBlockKey tenantId) (toAllocvec block)) :
    Accounted allocator live after := by
  obtain ⟨pools,represents,full,inside⟩ := accounted
  obtain ⟨slot,fresh,bounded,unused,opened⟩ := represents.open ok written
  exact ⟨_,opened,full.openSlot fresh bounded unused,inside⟩

theorem Accounted.take (accounted : Accounted allocator live disk) (counted : live place)
    (ok : computeServiceAddressAllocation disk place.tenantId place.service place.role = .ok (block,address))
    (written : after .dummyIps = ((disk .dummyIps).insert (tenantBlockKey block.tenantId)
      (toAllocvec block)).insert (serviceAddressKey address.tenantId address.service address.role)
        (toAllocvec address)) : Accounted allocator live after := by
  obtain ⟨pools,represents,full,inside⟩ := accounted
  rcases represents.take place ok written with same | ⟨absent,held,holds,room,taken⟩
  · exact accounted_congr same.symm ⟨pools,represents,full,inside⟩
  · refine ⟨_,taken,full.take holds room (represents.unleased absent),?_⟩
    intro other offset leased
    rcases update_eq_some.mp leased with ⟨rfl,_⟩ | ⟨_,before⟩
    · exact counted
    · exact inside other offset before

theorem allocateUntil_accounted {node : Node} (logId : LogId) (roles : List (String × String × String))
    (counted : ∀ tenantId workloadId role, (tenantId,workloadId,role) ∈ roles → live ⟨tenantId,workloadId,role⟩)
    (accounted : Accounted allocator live node.disk) :
    Accounted allocator live (allocateUntil node logId roles).last.disk := by
  induction roles generalizing node logId with
  | nil => exact accounted
  | cons named rest ih =>
    obtain ⟨tenantId,workloadId,role⟩ := named
    have later : ∀ tenantId workloadId role, (tenantId,workloadId,role) ∈ rest → live ⟨tenantId,workloadId,role⟩ :=
      fun _ _ _ member => counted _ _ _ (mem_cons_of_mem _ member)
    rw [allocateUntil]
    split
    · exact accounted
    · exact ih logId later accounted
    case h_3 audited computed =>
      split
      · exact accounted
      case h_2 applied ok =>
        obtain ⟨block,address,rfl,made⟩ := allocateServiceAddress_some computed
        have written := allocation_written ⟨applied.2,ok⟩
        have mine : live ⟨tenantId,workloadId,role⟩ := counted _ _ _ mem_cons_self
        exact ih (nextLogId logId) later (accounted.take mine made written)

end

theorem allocateUntil_workloads (node : Node) (logId : LogId) (roles : List (String × String × String)) :
    (allocateUntil node logId roles).last.disk .workloads = node.disk .workloads := by
  induction roles generalizing node logId with
  | nil => rfl
  | cons named rest ih =>
    obtain ⟨tenantId,workloadId,role⟩ := named
    rw [allocateUntil]
    split
    · rfl
    · exact ih node logId
    case h_3 audited computed =>
      split
      · rfl
      case h_2 applied ok =>
        obtain ⟨block,address,rfl,_⟩ := allocateServiceAddress_some computed
        have advances : Advances node ⟨logId,.normal (.system (.allocateServiceAddress block address))⟩ applied.1 :=
          ⟨applied.2,ok⟩
        have framed : applied.1.disk .workloads = node.disk .workloads := by
          apply advances.frame rfl
          intro audited normal
          cases normal
          simp [AuditedCommand.system,touches]
        exact (ih applied.1 (nextLogId logId)).trans framed

theorem passOutcome_workloads (node : Node) (logId : LogId) (specs : List WorkloadSpec) :
    (passOutcome node logId specs).last.disk .workloads = node.disk .workloads := by
  cases proposed : placementProposals node.disk specs with
  | error e => rw [passOutcome,proposed]
  | ok commands =>
    obtain ⟨placing,middle,next,_,frame,outcome⟩ := passOutcome_ok logId proposed
    rw [outcome]
    exact (allocateUntil_workloads middle next _).trans (frame .workloads rfl (by decide))

theorem passOutcome_accounted {node : Node} (logId : LogId)
    (counted : ∀ tenantId workloadId role, (tenantId,workloadId,role) ∈ serviceRoles specs →
      live ⟨tenantId,workloadId,role⟩) (accounted : Accounted allocator live node.disk) :
    Accounted allocator live (passOutcome node logId specs).last.disk := by
  cases proposed : placementProposals node.disk specs with
  | error e =>
    rw [passOutcome,proposed]
    exact accounted
  | ok commands =>
    obtain ⟨placing,middle,next,_,frame,outcome⟩ := passOutcome_ok logId proposed
    rw [outcome]
    exact allocateUntil_accounted next _ counted (accounted_congr (frame .dummyIps rfl (by decide)).symm accounted)

inductive ConsumptionEvent where
  | entry (entry : Entry)
  | reconcile (logId : LogId) (specs : List WorkloadSpec)

variable [Merges]

/-- A tenant's block is the one that the store computes. -/
def FleetosCommand.Ordinary (allocator : DummyIpAllocator) (disk : Disk) (cmd : FleetosCommand) : Prop :=
  (∃ record block, cmd = .createTenant record block ∧
    allocator.computeTenantBlockAllocation disk record.tenantId = .ok block) ∨ cmd.Proposable ∧ cmd.AllocatesNothing

inductive ConsumptionStep (allocator : DummyIpAllocator) : Node → ConsumptionEvent → Node → Prop where
  | entry {before after entry} : Advances before entry after →
      (∀ audited, entry.payload = .normal audited → audited.cmd.Ordinary allocator before.disk) →
      ConsumptionStep allocator before (.entry entry) after
  | reconcile {before : Node} (logId : LogId) {specs} : (∀ spec ∈ specs, spec ∈ decodedWorkloads before.disk) →
      ConsumptionStep allocator before (.reconcile logId specs) (passOutcome before logId specs).last

def KeepsAddressed (before after : Disk) : Prop :=
  ∀ place address, HoldsAddress before place address → place ∈ servicePlaces before → place ∈ servicePlaces after

theorem entry_accounted (advances : Advances before entry after)
    (ordinary : ∀ audited, entry.payload = .normal audited → audited.cmd.Ordinary allocator before.disk)
    (accounted : Accounted allocator live before.disk) : Accounted allocator live after.disk := by
  rcases advances.cases with ⟨audited,writes,kind,normal,ok,contents⟩ | ⟨_,same⟩
  case inr => exact accounted_congr (same .dummyIps rfl).symm accounted
  have stored := contents .dummyIps rfl
  rcases ordinary audited normal with ⟨record,block,shape,computed⟩ | ⟨proposable,nothing⟩
  · rw [shape] at ok
    cases ok
    exact accounted.open computed (stored.trans (by simp [put,perform,Write.on]))
  · exact accounted_congr (stored.trans (nothing_frame proposable nothing ok)).symm accounted

theorem step_accounted (step : ConsumptionStep allocator before event after)
    (kept : KeepsAddressed before.disk after.disk)
    (accounted : Accounted allocator (· ∈ servicePlaces before.disk) before.disk) :
    Accounted allocator (· ∈ servicePlaces after.disk) after.disk := by
  cases step with
  | entry advances ordinary => exact entry_accounted advances ordinary (accounted.mono kept)
  | reconcile logId stored =>
    rw [servicePlaces_congr (passOutcome_workloads before logId _)]
    exact passOutcome_accounted logId (fun _ _ _ named => mem_servicePlaces stored named) accounted

/-- As long as no service role with an address goes out of the store, offsets and refusals are accounted for. -/
theorem consumption_bounded {allocator : DummyIpAllocator} {first last : Node}
    {trace : List (Transition Node ConsumptionEvent)} (start : first.disk .dummyIps = ∅)
    (run : Run (ConsumptionStep allocator) first trace last)
    (kept : ∀ transition ∈ trace, KeepsAddressed transition.before.disk transition.after.disk) :
    (∀ transition ∈ trace, ConsumptionBounded transition.after.disk) ∧ ConsumptionBounded last.disk := by
  have accounted := run.invariant (fun node => Accounted allocator (· ∈ servicePlaces node.disk) node.disk)
    (fun transition => KeepsAddressed transition.before.disk transition.after.disk)
    (fun _ _ _ step keeps before => step_accounted step keeps before) (accounted_empty start) kept
  exact ⟨fun transition member => (accounted.1 transition member).2.bounded,accounted.2.bounded⟩

end

open Reference NoMessages

def commanded (node : Node) (index : UInt64) (cmd : FleetosCommand) : Node := (apply node [commandAt index cmd]).1

def passed (node : Node) (index : UInt64) : Node :=
  (passOutcome node (logIdAt index) (decodedWorkloads node.disk)).last

variable {allocator : DummyIpAllocator}

theorem command_step (node : Node) (index : UInt64) (cmd : FleetosCommand)
    (ok : (applyEntry node (commandAt index cmd)).isOk = true) (ordinary : cmd.Ordinary allocator node.disk) :
    ConsumptionStep allocator node (.entry (commandAt index cmd)) (commanded node index cmd) := by
  refine .entry (advances_apply ok) ?_
  intro audited normal
  cases normal
  exact ordinary

theorem pass_step_of (node : Node) (index : UInt64) :
    ConsumptionStep allocator node (.reconcile (logIdAt index) (decodedWorkloads node.disk)) (passed node index) :=
  .reconcile (logIdAt index) fun _ stored => stored

theorem keeps_of {before} (kept : ∀ place ∈ servicePlaces before, place ∉ servicePlaces after →
    getServiceAddress before place.tenantId place.service place.role = .ok none) : KeepsAddressed before after := by
  intro place address held live
  by_contra gone
  cases (kept place live gone).symm.trans held

def roleSpec (workloadId : String) : WorkloadSpec :=
  { tenantId := "acme", workloadId := workloadId, image := "shop:v1",
    replicas := (∅ : Std.ExtTreeMap String UInt32 compare).insert "web" 1 }

def acmeOpened (length : UInt8) : Node :=
  commanded (boot Disk.empty) 1 (.createTenant ⟨"acme",1700000000,[]⟩ ⟨"acme",0xF0000000,length,0⟩)

def shopFiled (length : UInt8) : Node :=
  commanded (acmeOpened length) 2 (.submitWorkloadSpec (recordOf (roleSpec "shop")))

def shopNumbered (length : UInt8) : Node := passed (shopFiled length) 3

def batchFiled : Node := commanded (shopNumbered 16) 4 (.submitWorkloadSpec (recordOf (roleSpec "batch")))

def batchGone : Node := commanded batchFiled 5 (.deleteWorkload "acme" "batch")

def reportRun : FleetosCommand := .triggerCronWorkload (recordOf (roleSpec "report-17")) ⟨"acme","report",17⟩

def reportFiled : Node := commanded batchGone 6 reportRun

def reportNumbered : Node := passed reportFiled 7

theorem report_accounted : ∃ trace, Run (ConsumptionStep defaultAllocator) (boot Disk.empty) trace reportNumbered ∧
    trace.length = 7 ∧ ConsumptionBounded reportNumbered.disk ∧
    getTenantBlock reportNumbered.disk "acme" = .ok (some ⟨"acme",0xF0000000,16,2⟩) ∧
    livePairs reportNumbered.disk "acme" = [⟨"acme","report-17","web"⟩,⟨"acme","shop","web"⟩] := by
  have created : ConsumptionStep defaultAllocator (boot Disk.empty) _ (acmeOpened 16) :=
    command_step (boot Disk.empty) 1 (.createTenant ⟨"acme",1700000000,[]⟩ ⟨"acme",0xF0000000,16,0⟩)
      (by decide +kernel) (.inl ⟨_,_,rfl,by decide +kernel⟩)
  have submitted : ConsumptionStep defaultAllocator (acmeOpened 16) _ (shopFiled 16) :=
    command_step (acmeOpened 16) 2 (.submitWorkloadSpec (recordOf (roleSpec "shop")))
      (by decide +kernel) (.inr ⟨trivial,trivial⟩)
  have batch : ConsumptionStep defaultAllocator (shopNumbered 16) _ batchFiled :=
    command_step (shopNumbered 16) 4 (.submitWorkloadSpec (recordOf (roleSpec "batch")))
      (by decide +kernel) (.inr ⟨trivial,trivial⟩)
  have deleted : ConsumptionStep defaultAllocator batchFiled _ batchGone :=
    command_step batchFiled 5 (.deleteWorkload "acme" "batch")
      (by decide +kernel) (.inr ⟨trivial,trivial⟩)
  have triggered : ConsumptionStep defaultAllocator batchGone _ reportFiled :=
    command_step batchGone 6 reportRun
      (by decide +kernel) (.inr ⟨trivial,trivial⟩)
  have run := Run.cons created (Run.cons submitted (Run.cons (pass_step_of (shopFiled 16) 3) (Run.cons batch
    (Run.cons deleted (Run.cons triggered (Run.cons (pass_step_of reportFiled 7) (.nil reportNumbered)))))))
  refine ⟨_,run,rfl,(consumption_bounded rfl run ?_).2,by decide +kernel,by decide +kernel⟩
  simp only [mem_cons,not_mem_nil,or_false,forall_eq_or_imp,forall_eq]
  refine ⟨?_,?_,?_,?_,?_,?_,?_⟩ <;>
    apply keeps_of <;>
    decide +kernel

theorem first_block (allocator : DummyIpAllocator) (missing : getTenantBlock disk tenantId = .ok none)
    (unused : allocator.usedBlockIndices disk = []) :
    allocator.computeTenantBlockAllocation disk tenantId =
      .ok ⟨tenantId,allocator.blockBase 0,allocator.tenantBlockPrefix,0⟩ := by
  obtain ⟨more,blocks⟩ : ∃ more, allocator.maxTenantBlocks.toNat = more + 1 := by
    rw [DummyIpAllocator.maxTenantBlocks_toNat]
    exact Nat.exists_eq_succ_of_ne_zero (Nat.two_pow_pos _).ne'
  simp [DummyIpAllocator.computeTenantBlockAllocation,missing,unused,blocks,List.range_succ_eq_map,bind,Except.bind]

def singleAllocator : DummyIpAllocator := ⟨32,by decide,by decide⟩

def shopGone : Node := commanded (shopNumbered 32) 4 (.deleteWorkload "acme" "shop")

def cartFiled : Node := commanded shopGone 5 (.submitWorkloadSpec (recordOf (roleSpec "cart")))

theorem deleted_shop_consumes : ∃ earlier later,
    Run (ConsumptionStep singleAllocator) (boot Disk.empty) earlier shopGone ∧
    Run (ConsumptionStep singleAllocator) shopGone later cartFiled ∧
    getTenantBlock shopGone.disk "acme" = .ok (some ⟨"acme",0xF0000000,32,1⟩) ∧ livePairs shopGone.disk "acme" = [] ∧
    livePairs cartFiled.disk "acme" = [⟨"acme","cart","web"⟩] ∧
    (⟨"acme",0xF0000000,32,1⟩ : TenantBlock).maxHosts = 1 ∧
    computeServiceAddressAllocation cartFiled.disk "acme" "cart" "web" = .error (.serviceSpaceExhausted "acme") ∧
    ¬ConsumptionBounded shopGone.disk ∧ ¬ConsumptionBounded cartFiled.disk := by
  have created : ConsumptionStep singleAllocator (boot Disk.empty) _ (acmeOpened 32) :=
    command_step (boot Disk.empty) 1 (.createTenant ⟨"acme",1700000000,[]⟩ ⟨"acme",0xF0000000,32,0⟩)
      (by decide +kernel) (.inl ⟨_,_,rfl,first_block singleAllocator (by decide +kernel) (by decide +kernel)⟩)
  have submitted : ConsumptionStep singleAllocator (acmeOpened 32) _ (shopFiled 32) :=
    command_step (acmeOpened 32) 2 (.submitWorkloadSpec (recordOf (roleSpec "shop")))
      (by decide +kernel) (.inr ⟨trivial,trivial⟩)
  have deleted : ConsumptionStep singleAllocator (shopNumbered 32) _ shopGone :=
    command_step (shopNumbered 32) 4 (.deleteWorkload "acme" "shop")
      (by decide +kernel) (.inr ⟨trivial,trivial⟩)
  have cart : ConsumptionStep singleAllocator shopGone _ cartFiled :=
    command_step shopGone 5 (.submitWorkloadSpec (recordOf (roleSpec "cart")))
      (by decide +kernel) (.inr ⟨trivial,trivial⟩)
  have taken : getTenantBlock shopGone.disk "acme" = .ok (some ⟨"acme",0xF0000000,32,1⟩) := by decide +kernel
  have still : getTenantBlock cartFiled.disk "acme" = .ok (some ⟨"acme",0xF0000000,32,1⟩) := by decide +kernel
  have none : livePairs shopGone.disk "acme" = [] := by decide +kernel
  have one : livePairs cartFiled.disk "acme" = [⟨"acme","cart","web"⟩] := by decide +kernel
  have exhausted : computeServiceAddressAllocation cartFiled.disk "acme" "cart" "web" =
      .error (.serviceSpaceExhausted "acme") := by decide +kernel
  have earlier := Run.cons created (Run.cons submitted (Run.cons (pass_step_of (shopFiled 32) 3)
    (Run.cons deleted (.nil shopGone))))
  have later := Run.cons cart (.nil cartFiled)
  refine ⟨_,_,earlier,later,taken,none,one,by decide,exhausted,?_,?_⟩
  · intro bounded
    have counted := bounded.consumed taken
    rw [none] at counted
    exact absurd counted (by decide)
  · intro bounded
    have live : (⟨"acme","cart","web"⟩ : ServicePlace) ∈ servicePlaces cartFiled.disk := by decide +kernel
    refine bounded.granted live still ?_ exhausted
    rw [one]
    decide

end FleetosControl
