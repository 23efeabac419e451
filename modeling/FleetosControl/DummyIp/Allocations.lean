import FleetosControl.DummyIp.Allocator
import FleetosControl.Raft.Proposals

/-! Allocated addresses over whole runs. What is stored is the image of abstract pools, and a new
tenant's block stands at the first index of the space at which no stored block does. -/
namespace FleetosControl
open Wire KeyValue Trace Views Allocation Std

structure ServicePlace where
  tenantId : String
  service : String
  role : String
  deriving DecidableEq

def ServicePlace.key (place : ServicePlace) : Bytes := serviceAddressKey place.tenantId place.service place.role

def TenantBlock.Contains (block : TenantBlock) (address : UInt32) : Prop :=
  block.base.toNat ≤ address.toNat ∧ address.toNat < block.base.toNat + block.maxHosts.toNat

instance (block : TenantBlock) (address : UInt32) : Decidable (block.Contains address) :=
  inferInstanceAs (Decidable (_ ∧ _))

theorem tenantBlockKey_injective (same : tenantBlockKey left = tenantBlockKey right) : left = right := by
  unfold tenantBlockKey at same
  rw [asBytes_append,asBytes_append] at same
  exact asBytes_injective (List.append_cancel_left same)

theorem tenant_isPrefixOf (tenantId : String) : (asBytes "tenant:").isPrefixOf (tenantBlockKey tenantId) = true := by
  rw [tenantBlockKey,asBytes_append]
  exact List.isPrefixOf_iff_prefix.mpr (List.prefix_append _ _)

theorem tenantBlockKey_ne (tenantId : String) (place : ServicePlace) : tenantBlockKey tenantId ≠ place.key := by
  have tenant : (tenantBlockKey tenantId).head? = some 116 := by
    rw [tenantBlockKey,asBytes_append]
    rfl
  have service : place.key.head? = some 115 := by
    simp only [ServicePlace.key,serviceAddressKey,asBytes_append]
    rfl
  intro same
  rw [same,service] at tenant
  cases tenant

namespace DummyIpAllocator

variable (allocator : DummyIpAllocator)

def block (tenantId : String) (held : Held) : TenantBlock :=
  ⟨tenantId,allocator.blockBase (.ofNat held.slot),allocator.tenantBlockPrefix,.ofNat held.next⟩

def address (place : ServicePlace) (held : Held) (offset : Nat) : ServiceAddress :=
  ⟨place.tenantId,place.service,place.role,allocator.blockBase (.ofNat held.slot) + .ofNat offset⟩

theorem block_base_toNat {index : Nat} (bounded : index < allocator.slots) (tenantId : String) (next : Nat) :
    (allocator.block tenantId ⟨index,next⟩).base.toNat = dummySpaceBase.toNat + index * allocator.size := by
  have slot := allocator.slot_toNat bounded
  rw [block,allocator.blockBase_toNat (by rw [slot]; exact bounded),slot]

theorem block_contains {held : Held} (bounded : held.slot < allocator.slots) (tenantId : String) (address : UInt32) :
    (allocator.block tenantId held).Contains address ↔ ∃ offset < allocator.size,
      address.toNat = dummySpaceBase.toNat + Pools.number allocator.size held offset := by
  have base := allocator.block_base_toNat bounded tenantId held.next
  have hosts : (allocator.block tenantId held).maxHosts.toNat = allocator.size := allocator.maxHosts_toNat rfl
  rw [TenantBlock.Contains,hosts,base]
  unfold Pools.number
  constructor
  · intro ⟨lower,upper⟩
    exact ⟨address.toNat - (dummySpaceBase.toNat + held.slot * allocator.size),by omega,by omega⟩
  · intro ⟨offset,inside,same⟩
    omega

end DummyIpAllocator

section
variable [FleetosCore] [Formats] {allocator : DummyIpAllocator} {left right : Disk}

def HoldsAddress (disk : Disk) (place : ServicePlace) (address : UInt32) : Prop :=
  getServiceAddress disk place.tenantId place.service place.role =
    .ok (some ⟨place.tenantId,place.service,place.role,address⟩)

structure AddressesApart (disk : Disk) : Prop where
  blocks : ∀ {left right : String} {first second : TenantBlock}, getTenantBlock disk left = .ok (some first) →
    getTenantBlock disk right = .ok (some second) → left ≠ right →
    ∀ address, ¬(first.Contains address ∧ second.Contains address)
  inside : ∀ {place : ServicePlace} {address : UInt32}, HoldsAddress disk place address →
    ∃ block, getTenantBlock disk place.tenantId = .ok (some block) ∧ block.Contains address
  distinct : ∀ {left right : ServicePlace} {address : UInt32}, HoldsAddress disk left address →
    HoldsAddress disk right address → left = right

section
variable (allocator : DummyIpAllocator) {disk after : Disk} {tenantId : String} {place : ServicePlace}

abbrev AddressPools := Pools ServicePlace.tenantId allocator.slots allocator.size

variable {allocator}

def StoresBlock (pools : AddressPools allocator) (key bytes : Bytes) : Prop :=
  ∃ tenantId held, pools.held tenantId = some held ∧ key = tenantBlockKey tenantId ∧
    bytes = toAllocvec (allocator.block tenantId held)

def StoresAddress (pools : AddressPools allocator) (key bytes : Bytes) : Prop :=
  ∃ place held offset, pools.held place.tenantId = some held ∧ pools.lease place = some offset ∧ key = place.key ∧
    bytes = toAllocvec (allocator.address place held offset)

/-- The store holds the blocks and addresses of the pools, and nothing else. -/
def Represents (pools : AddressPools allocator) (disk : Disk) : Prop :=
  ∀ key bytes, (disk .dummyIps)[key]? = some bytes ↔ StoresBlock pools key bytes ∨ StoresAddress pools key bytes

def Allocated (allocator : DummyIpAllocator) (disk : Disk) : Prop :=
  ∃ pools : AddressPools allocator, Represents pools disk

theorem represents_empty (empty : disk .dummyIps = ∅) : Represents (Pools.empty : AddressPools allocator) disk := by
  intro key bytes
  simp [empty,StoresBlock,StoresAddress,Pools.empty]

theorem allocated_empty (empty : disk .dummyIps = ∅) : Allocated allocator disk :=
  ⟨Pools.empty,represents_empty empty⟩

variable {pools : AddressPools allocator} {disk : Disk} (represents : Represents pools disk)

include represents

theorem Represents.block {block} : getTenantBlock disk tenantId = .ok (some block) ↔
      ∃ held, pools.held tenantId = some held ∧ block = allocator.block tenantId held := by
  rw [getTenantBlock,readEntry_some]
  constructor
  · intro ⟨bytes,stored,decoded⟩
    rcases (represents _ _).mp stored with ⟨owner,held,holds,key,rfl⟩ | ⟨place,_,_,_,_,key,_⟩
    · obtain rfl := tenantBlockKey_injective key
      rw [fromBytes_iff] at decoded
      exact ⟨held,holds,decoded.symm⟩
    · exact (tenantBlockKey_ne tenantId place key).elim
  · intro ⟨held,holds,same⟩
    subst same
    exact ⟨_,(represents _ _).mpr (.inl ⟨tenantId,held,holds,rfl,rfl⟩),fromBytes_toAllocvec _⟩

theorem Represents.no_block (absent : (disk .dummyIps)[tenantBlockKey tenantId]? = none) :
    pools.held tenantId = none := by
  cases holds : pools.held tenantId with
  | none => rfl
  | some held =>
    have stored := (represents _ _).mpr (.inl ⟨tenantId,held,holds,rfl,rfl⟩)
    rw [absent] at stored
    cases stored

theorem Represents.address {service role address}
    (found : getServiceAddress disk tenantId service role = .ok (some address)) :
    ∃ place held offset, pools.held place.tenantId = some held ∧ pools.lease place = some offset ∧
      serviceAddressKey tenantId service role = place.key ∧ address = allocator.address place held offset := by
  obtain ⟨bytes,stored,decoded⟩ := readEntry_some.mp found
  rcases (represents _ _).mp stored with ⟨owner,_,_,key,_⟩ | ⟨place,held,offset,holds,leased,key,rfl⟩
  · exact (tenantBlockKey_ne owner ⟨tenantId,service,role⟩ key.symm).elim
  · rw [fromBytes_iff] at decoded
    exact ⟨place,held,offset,holds,leased,key,decoded.symm⟩

theorem Represents.holds {address : UInt32} (found : HoldsAddress disk place address) :
    ∃ held offset, pools.held place.tenantId = some held ∧ pools.lease place = some offset ∧
      address = allocator.blockBase (.ofNat held.slot) + .ofNat offset := by
  obtain ⟨owner,held,offset,holds,leased,_,same⟩ := represents.address found
  simp only [DummyIpAllocator.address,ServiceAddress.mk.injEq] at same
  obtain ⟨tenant,service,role,number⟩ := same
  have own : place = owner := by
    cases place
    cases owner
    simp_all
  subst own
  exact ⟨held,offset,holds,leased,number⟩

theorem Represents.leased {offset : Nat} (leased : pools.lease place = some offset) :
    ∃ address, HoldsAddress disk place address := by
  obtain ⟨held,holds,_⟩ := pools.leased leased
  have stored := (represents _ _).mpr (.inr ⟨place,held,offset,holds,leased,rfl,rfl⟩)
  exact ⟨_,readEntry_some.mpr ⟨_,stored,fromBytes_toAllocvec _⟩⟩

theorem Represents.unleased (absent : (disk .dummyIps)[place.key]? = none) : pools.lease place = none := by
  cases leased : pools.lease place with
  | none => rfl
  | some offset =>
    obtain ⟨address,held⟩ := represents.leased leased
    obtain ⟨bytes,stored,_⟩ := readEntry_some.mp held
    cases absent.symm.trans stored

theorem Represents.used {slot : Nat} (small : slot < allocator.slots)
    (unused : UInt32.ofNat slot ∉ allocator.usedBlockIndices disk) (tenantId : String) (held : Held)
    (holds : pools.held tenantId = some held) : held.slot ≠ slot := by
  intro same
  subst same
  apply unused
  have stored := (represents _ _).mpr (.inl ⟨tenantId,held,holds,rfl,rfl⟩)
  refine mem_filterMap.mpr ⟨(tenantBlockKey tenantId,toAllocvec (allocator.block tenantId held)),?_,?_⟩
  · refine mem_filter.mpr ⟨?_,tenant_isPrefixOf tenantId⟩
    exact ExtTreeMap.mem_toList_iff_getElem?_eq_some.mpr stored
  · simp [Except.toOption,DummyIpAllocator.block,allocator.blockIndex_slot small]

theorem Represents.apart : AddressesApart disk where
  blocks := by
    intro left right first second one other different address ⟨inFirst,inSecond⟩
    obtain ⟨held,holds,rfl⟩ := represents.block.mp one
    obtain ⟨kept,keeps,rfl⟩ := represents.block.mp other
    obtain ⟨here,inside,low⟩ := (allocator.block_contains (pools.slot_lt holds) _ _).mp inFirst
    obtain ⟨there,within,high⟩ := (allocator.block_contains (pools.slot_lt keeps) _ _).mp inSecond
    exact pools.blocks_disjoint holds keeps different inside within (Nat.add_left_cancel (low.symm.trans high))
  inside := by
    intro place address found
    obtain ⟨held,offset,holds,leased,rfl⟩ := represents.holds found
    obtain ⟨_,_,inside⟩ := pools.lease_inside leased
    refine ⟨allocator.block place.tenantId held,represents.block.mpr ⟨held,holds,rfl⟩,?_⟩
    have bounded := pools.slot_lt holds
    exact (allocator.block_contains bounded _ _).mpr ⟨offset,inside,allocator.address_toNat bounded inside⟩
  distinct := by
    intro left right address one other
    obtain ⟨held,here,holds,leased,rfl⟩ := represents.holds one
    obtain ⟨kept,there,keeps,taken,same⟩ := represents.holds other
    obtain ⟨_,_,inside⟩ := pools.lease_inside leased
    obtain ⟨_,_,within⟩ := pools.lease_inside taken
    have numbers := congrArg UInt32.toNat same
    rw [allocator.address_toNat (pools.slot_lt holds) inside,
      allocator.address_toNat (pools.slot_lt keeps) within] at numbers
    exact pools.leases_distinct leased taken holds keeps (Nat.add_left_cancel numbers)

theorem Represents.open {block} (ok : allocator.computeTenantBlockAllocation disk tenantId = .ok block)
    (written : after .dummyIps = (disk .dummyIps).insert (tenantBlockKey tenantId) (toAllocvec block)) :
    ∃ slot fresh bounded unused, Represents (pools.openSlot tenantId slot fresh bounded unused) after := by
  obtain ⟨absent,slot,bounded,unused,rfl⟩ := DummyIpAllocator.computeTenantBlockAllocation_ok ok
  have fresh := represents.no_block absent
  refine ⟨slot,fresh,bounded,represents.used bounded unused,?_⟩
  intro key bytes
  rw [written,insert_eq_some,represents]
  constructor
  · rintro (⟨rfl,rfl⟩ | ⟨other,⟨owner,held,holds,rfl,rfl⟩ | ⟨place,held,offset,holds,leased,rfl,rfl⟩⟩)
    · exact .inl ⟨tenantId,⟨slot,0⟩,update_eq_some.mpr (.inl ⟨rfl,rfl⟩),rfl,rfl⟩
    · have different : owner ≠ tenantId := fun same => other (by rw [same])
      exact .inl ⟨owner,held,update_eq_some.mpr (.inr ⟨different,holds⟩),rfl,rfl⟩
    · have different : place.tenantId ≠ tenantId := by
        intro same
        rw [same,fresh] at holds
        cases holds
      exact .inr ⟨place,held,offset,update_eq_some.mpr (.inr ⟨different,holds⟩),leased,rfl,rfl⟩
  · rintro (⟨owner,held,holds,rfl,rfl⟩ | ⟨place,held,offset,holds,leased,rfl,rfl⟩)
    · rcases update_eq_some.mp holds with ⟨rfl,rfl⟩ | ⟨different,before⟩
      · exact .inl ⟨rfl,rfl⟩
      · exact .inr ⟨mt tenantBlockKey_injective different,.inl ⟨owner,held,before,rfl,rfl⟩⟩
    · obtain ⟨block,before,_⟩ := pools.leased leased
      rcases update_eq_some.mp holds with ⟨same,_⟩ | ⟨_,kept⟩
      · rw [same,fresh] at before
        cases before
      · exact .inr ⟨(tenantBlockKey_ne tenantId place).symm,.inr ⟨place,held,offset,kept,leased,rfl,rfl⟩⟩

theorem Represents.rewrite {block address} (held : getTenantBlock disk place.tenantId = .ok (some block))
    (existing : getServiceAddress disk place.tenantId place.service place.role = .ok (some address)) :
    ((disk .dummyIps).insert (tenantBlockKey block.tenantId) (toAllocvec block)).insert
      (serviceAddressKey address.tenantId address.service address.role) (toAllocvec address) = disk .dummyIps := by
  obtain ⟨stored,holds,rfl⟩ := represents.block.mp held
  obtain ⟨owner,kept,offset,keeps,leased,_,rfl⟩ := represents.address existing
  have block : (disk .dummyIps)[tenantBlockKey place.tenantId]? = some (toAllocvec (allocator.block place.tenantId stored)) :=
    (represents _ _).mpr (.inl ⟨_,_,holds,rfl,rfl⟩)
  have address : (disk .dummyIps)[owner.key]? = some (toAllocvec (allocator.address owner kept offset)) :=
    (represents _ _).mpr (.inr ⟨_,_,_,keeps,leased,rfl,rfl⟩)
  have same := insert_of_lookup block
  rw [DummyIpAllocator.block] at same ⊢
  rw [same]
  exact insert_of_lookup address

theorem Represents.next {held} (holds : pools.held place.tenantId = some held) (room : held.next < allocator.size)
    (absent : (disk .dummyIps)[place.key]? = none) (written :
    after .dummyIps = ((disk .dummyIps).insert (tenantBlockKey place.tenantId)
      (toAllocvec (allocator.block place.tenantId ⟨held.slot,held.next + 1⟩))).insert place.key
        (toAllocvec (allocator.address place held held.next))) :
    Represents (pools.take place held holds room) after := by
  intro key bytes
  rw [written,insert_eq_some,insert_eq_some,represents]
  constructor
  · rintro (⟨rfl,rfl⟩ | ⟨apart,⟨rfl,rfl⟩ | ⟨other,⟨owner,kept,keeps,rfl,rfl⟩ |
      ⟨owner,kept,offset,keeps,leased,rfl,rfl⟩⟩⟩)
    · exact .inr ⟨place,⟨held.slot,held.next + 1⟩,held.next,update_eq_some.mpr (.inl ⟨rfl,rfl⟩),
        update_eq_some.mpr (.inl ⟨rfl,rfl⟩),rfl,rfl⟩
    · exact .inl ⟨place.tenantId,_,update_eq_some.mpr (.inl ⟨rfl,rfl⟩),rfl,rfl⟩
    · have different : owner ≠ place.tenantId := fun same => other (by rw [same])
      exact .inl ⟨owner,kept,update_eq_some.mpr (.inr ⟨different,keeps⟩),rfl,rfl⟩
    · have different : owner ≠ place := fun same => apart (by rw [same])
      have still : Function.update pools.lease place (some held.next) owner = some offset :=
        update_eq_some.mpr (.inr ⟨different,leased⟩)
      by_cases mine : owner.tenantId = place.tenantId
      · rw [mine,holds,Option.some.injEq] at keeps
        subst keeps
        exact .inr ⟨owner,_,offset,update_eq_some.mpr (.inl ⟨mine,rfl⟩),still,rfl,rfl⟩
      · exact .inr ⟨owner,kept,offset,update_eq_some.mpr (.inr ⟨mine,keeps⟩),still,rfl,rfl⟩
  · rintro (⟨owner,kept,keeps,rfl,rfl⟩ | ⟨owner,kept,offset,keeps,leased,rfl,rfl⟩)
    · refine .inr ⟨tenantBlockKey_ne owner place,?_⟩
      rcases update_eq_some.mp keeps with ⟨rfl,rfl⟩ | ⟨different,before⟩
      · exact .inl ⟨rfl,rfl⟩
      · exact .inr ⟨mt tenantBlockKey_injective different,.inl ⟨owner,kept,before,rfl,rfl⟩⟩
    · rcases update_eq_some.mp leased with ⟨rfl,rfl⟩ | ⟨different,before⟩
      · rcases update_eq_some.mp keeps with ⟨_,rfl⟩ | ⟨other,_⟩
        · exact .inl ⟨rfl,rfl⟩
        · exact (other rfl).elim
      · obtain ⟨old,own,slot⟩ : ∃ old, pools.held owner.tenantId = some old ∧ old.slot = kept.slot := by
          rcases update_eq_some.mp keeps with ⟨same,rfl⟩ | ⟨_,before⟩
          · exact ⟨held,same ▸ holds,rfl⟩
          · exact ⟨kept,before,rfl⟩
        have image : allocator.address owner kept offset = allocator.address owner old offset := by
          rw [DummyIpAllocator.address,DummyIpAllocator.address,slot]
        have stored := (represents _ _).mpr (.inr ⟨owner,old,offset,own,before,rfl,rfl⟩)
        have apart : owner.key ≠ place.key := by
          intro same
          rw [same,absent] at stored
          cases stored
        rw [image]
        exact .inr ⟨apart,.inr ⟨(tenantBlockKey_ne _ _).symm,.inr ⟨owner,old,offset,own,before,rfl,rfl⟩⟩⟩

theorem Represents.take (place : ServicePlace) {block address}
    (ok : computeServiceAddressAllocation disk place.tenantId place.service place.role = .ok (block,address))
    (written : after .dummyIps = ((disk .dummyIps).insert (tenantBlockKey block.tenantId)
      (toAllocvec block)).insert (serviceAddressKey address.tenantId address.service address.role)
        (toAllocvec address)) :
    after .dummyIps = disk .dummyIps ∨ (disk .dummyIps)[place.key]? = none ∧
      ∃ held holds room, Represents (pools.take place held holds room) after := by
  obtain ⟨stored,found,existing | ⟨absent,below,rfl,rfl⟩⟩ := computeServiceAddressAllocation_ok ok
  · obtain ⟨rfl,existing⟩ := existing
    rw [represents.rewrite found existing] at written
    exact .inl written
  · obtain ⟨held,holds,rfl⟩ := represents.block.mp found
    have limit := pools.next_le holds
    have small := allocator.size_lt
    have room : held.next < allocator.size := by
      have bound := UInt32.lt_iff_toNat_lt.mp below
      rw [allocator.maxHosts_toNat rfl,DummyIpAllocator.block,UInt32.toNat_ofNat',Nat.mod_eq_of_lt (by omega)] at bound
      exact bound
    have advanced : (UInt32.ofNat held.next + 1) = UInt32.ofNat (held.next + 1) := by simp
    refine .inr ⟨absent,held,holds,room,represents.next holds room absent ?_⟩
    rw [written]
    simp only [DummyIpAllocator.block,advanced]
    rfl

end

/-- The allocation that a command carries is what the store computes when it commits. -/
def FleetosCommand.StillComputed (allocator : DummyIpAllocator) (disk : Disk) : FleetosCommand → Prop
  | .createTenant record block => allocator.computeTenantBlockAllocation disk record.tenantId = .ok block
  | .allocateServiceAddress block address =>
    computeServiceAddressAllocation disk address.tenantId address.service address.role = .ok (block,address)
  | _ => True

def FleetosCommand.AllocatesNothing : FleetosCommand → Prop
  | .createTenant .. | .allocateTenantBlock .. | .allocateServiceAddress .. => False
  | _ => True

theorem represents_congr {pools : AddressPools allocator} (same : left .dummyIps = right .dummyIps)
    (represents : Represents pools left) : Represents pools right := by
  intro key bytes
  rw [← same]
  exact represents key bytes

theorem allocated_congr (same : left .dummyIps = right .dummyIps) (allocated : Allocated allocator left) :
    Allocated allocator right := by
  obtain ⟨pools,represents⟩ := allocated
  exact ⟨pools,represents_congr same represents⟩

section
variable [Merges] {allocator : DummyIpAllocator}

/-- Computed from the state that was read. Nothing proposes `AllocateTenantBlock`. -/
inductive AllocatesFrom (allocator : DummyIpAllocator) (view : Disk) : AuditedCommand → Prop where
  | tenant {server : AdminServer} : server.storage .dummyIps = view .dummyIps →
      server.createTenant allocator peer requestId tenantId = .ok audited → AllocatesFrom allocator view audited
  | service {spec : WorkloadSpec} :
      role ∈ spec.replicas → WorkloadController.allocateServiceAddress view tenantId workloadId role = .ok (some audited) →
      AllocatesFrom allocator view audited
  | other : Proposed audited → audited.cmd.AllocatesNothing → AllocatesFrom allocator view audited

def Entry.AllocatesFrom (allocator : DummyIpAllocator) (view : Node) (entry : Entry) : Prop :=
  ∀ audited, entry.payload = .normal audited → FleetosControl.AllocatesFrom allocator view.disk audited

def Entry.StillComputed (allocator : DummyIpAllocator) (disk : Disk) (entry : Entry) : Prop :=
  ∀ audited, entry.payload = .normal audited → audited.cmd.StillComputed allocator disk

abbrev AllocationStep (allocator : DummyIpAllocator) := CommitStep (Entry.AllocatesFrom allocator) Advances

theorem AllocatesFrom.cases (allocates : AllocatesFrom allocator view audited) :
    (∃ record block, audited.cmd = .createTenant record block) ∨
      (∃ block address, audited.cmd = .allocateServiceAddress block address) ∨
      audited.cmd.Proposable ∧ audited.cmd.AllocatesNothing := by
  cases allocates with
  | tenant _ ok =>
    obtain ⟨_,_,ok⟩ := bind_ok ok
    obtain ⟨_,_,ok⟩ := bind_ok ok
    obtain ⟨_,_,ok⟩ := bind_ok ok
    obtain ⟨existing,_,ok⟩ := bind_ok ok
    split at ok
    · cases ok
    · obtain ⟨block,_,ok⟩ := bind_ok ok
      cases ok
      exact .inl ⟨_,_,rfl⟩
  | service _ ok =>
    obtain ⟨block,address,rfl,_⟩ := WorkloadController.allocateServiceAddress_some ok
    exact .inr (.inl ⟨block,address,rfl⟩)
  | other proposed nothing => exact .inr (.inr ⟨proposed_proposable proposed,nothing⟩)

theorem nothing_frame {cmd : FleetosCommand} (proposable : cmd.Proposable) (nothing : cmd.AllocatesNothing)
    (ok : applyCommand disk cmd = .ok (writes,kind)) : commit disk writes .dummyIps = disk .dummyIps := by
  cases cmd
  case createTenant | allocateTenantBlock | allocateServiceAddress => exact nothing.elim
  case applyManifests updates =>
    cases ok
    apply commit_frame
    intro write member table
    have kept := applyManifests_table proposable member
    simp [table] at kept
  all_goals exact applyCommand_frame ok .dummyIps (by simp [touches])

theorem entry_allocates {before after view entry} (advances : Advances before entry after)
    (allocates : entry.AllocatesFrom allocator view) (computed : entry.StillComputed allocator before.disk)
    (allocated : Allocated allocator before.disk) : Allocated allocator after.disk := by
  rcases advances.cases with ⟨audited,writes,kind,normal,ok,same⟩ | ⟨_,same⟩
  case inr => exact allocated_congr (same .dummyIps rfl).symm allocated
  have still := computed audited normal
  have contents := same .dummyIps rfl
  obtain ⟨pools,represents⟩ := allocated
  rcases (allocates audited normal).cases with ⟨record,block,shape⟩ | ⟨block,address,shape⟩ | ⟨proposable,nothing⟩
  · rw [shape] at ok still
    cases ok
    obtain ⟨_,_,_,_,opened⟩ := represents.open still (contents.trans (by simp [put,perform,Write.on]))
    exact ⟨_,opened⟩
  · rw [shape] at ok still
    cases ok
    rcases represents.take ⟨address.tenantId,address.service,address.role⟩ still (contents.trans
      (by simp [put,perform,Write.on,serviceAddressKey])) with same | ⟨_,_,_,_,taken⟩
    · exact allocated_congr same.symm ⟨pools,represents⟩
    · exact ⟨_,taken⟩
  · exact allocated_congr (contents.trans (nothing_frame proposable nothing ok)).symm ⟨pools,represents⟩

theorem allocations_apart {allocator : DummyIpAllocator} {first last : History Node}
    {trace : List (Committed Node Entry)} (start : Allocated allocator first.current.disk)
    (run : Run (AllocationStep allocator) first trace last)
    (computed : ∀ transition ∈ trace, transition.label.command.StillComputed allocator transition.before.current.disk) :
    ∀ transition ∈ trace, AddressesApart transition.after.current.disk := by
  have kept := run.invariant (fun history => Allocated allocator history.current.disk)
    (fun transition => transition.label.command.StillComputed allocator transition.before.current.disk) ?_ start computed
  · intro transition member
    obtain ⟨pools,represents⟩ := (kept.1 transition member).2
    exact represents.apart
  · intro before label after step still allocated
    obtain ⟨_,allocates,advances,_⟩ := step.cases
    exact entry_allocates advances allocates still allocated

end

end

section
open Reference NoMessages

def defaultAllocator : DummyIpAllocator := ⟨16,by decide,by decide⟩

def createTenantAt (index : UInt64) (tenantId : String) (base : UInt32) : Entry := ⟨logIdAt index,.normal
  ⟨.createTenant ⟨tenantId,1700000000,[]⟩ ⟨tenantId,base,16,0⟩,
    some ⟨"req-1","spiffe://admin.example.internal/ns/system/ctrl/fleetctl-proxy",tenantId,1700000000⟩⟩⟩

def allocateShop (index : UInt64) : Entry := commandAt index
  (.allocateServiceAddress ⟨"acme",0xF0000000,16,1⟩ ⟨"acme","shop","web",0xF0000000⟩)

def acmeCreated : Node := (apply (boot Disk.empty) [createTenantAt 1 "acme" 0xF0000000]).1

def shopAllocated : Node := (apply acmeCreated [allocateShop 2]).1

def betaCreated : Node := (apply shopAllocated [createTenantAt 3 "beta" 0xF0010000]).1

def betaOverlaps : Node := (apply acmeCreated [createTenantAt 2 "beta" 0xF0000000]).1

theorem createTenant_allocates {view : Node} {base : UInt32} (index : UInt64)
    (valid : validateIdentifier tenantId "tenant_id" = .ok ())
    (missing : (view.disk .tenants)[asBytes tenantId]? = none)
    (computed : defaultAllocator.computeTenantBlockAllocation view.disk tenantId = .ok ⟨tenantId,base,16,0⟩) :
    (createTenantAt index tenantId base).AllocatesFrom defaultAllocator view := by
  intro audited normal
  cases normal
  have admin : AdminServer.requireClusterAdminWrite ⟨view.disk,[],86400,1700000000⟩ fleetctlProxy = .ok () := by
    have proxy : callerIsCtrl fleetctlProxy = .ok true := by decide +kernel
    simp [AdminServer.requireClusterAdminWrite,proxy,bind,Except.bind,pure,Except.pure]
  exact .tenant rfl (AdminServer.createTenant_eq (by decide +kernel) admin valid missing computed)

theorem acme_computed : (createTenantAt 1 "acme" 0xF0000000).AllocatesFrom defaultAllocator (boot Disk.empty) :=
  createTenant_allocates 1 (by decide +kernel) (by decide +kernel) (by decide +kernel)

theorem acme_advances : Advances (boot Disk.empty) (createTenantAt 1 "acme" 0xF0000000) acmeCreated :=
  advances_apply (by decide +kernel)

/-- Two requests that read the store before either has committed are given the same block. -/
theorem tenant_blocks_overlap : ∃ trace, Run (AllocationStep defaultAllocator) ⟨boot Disk.empty,[]⟩ trace
      ⟨betaOverlaps,[acmeCreated,boot Disk.empty]⟩ ∧ ¬AddressesApart betaOverlaps.disk := by
  have beta : Advances acmeCreated (createTenantAt 2 "beta" 0xF0000000) betaOverlaps :=
    advances_apply (by decide +kernel)
  have stale : (createTenantAt 2 "beta" 0xF0000000).AllocatesFrom defaultAllocator (boot Disk.empty) :=
    createTenant_allocates 2 (by decide +kernel) (by decide +kernel) (by decide +kernel)
  refine ⟨_,Run.cons (commitStep (.inl rfl) acme_computed acme_advances)
    (Run.cons (commitStep (.inr mem_cons_self) stale beta) (.nil _)),?_⟩
  intro apart
  have first : getTenantBlock betaOverlaps.disk "acme" = .ok (some ⟨"acme",0xF0000000,16,0⟩) := by decide +kernel
  have second : getTenantBlock betaOverlaps.disk "beta" = .ok (some ⟨"beta",0xF0000000,16,0⟩) := by decide +kernel
  exact apart.blocks first second (by decide) 0xF0000000 (by decide)

def turnsTrace : List (Committed Node Entry) :=
  [⟨⟨boot Disk.empty,[]⟩,⟨boot Disk.empty,createTenantAt 1 "acme" 0xF0000000⟩,⟨acmeCreated,[boot Disk.empty]⟩⟩,
    ⟨⟨acmeCreated,[boot Disk.empty]⟩,⟨acmeCreated,allocateShop 2⟩,⟨shopAllocated,[acmeCreated,boot Disk.empty]⟩⟩,
    ⟨⟨shopAllocated,[acmeCreated,boot Disk.empty]⟩,⟨acmeCreated,createTenantAt 3 "beta" 0xF0010000⟩,
      ⟨betaCreated,[shopAllocated,acmeCreated,boot Disk.empty]⟩⟩]

theorem acme_and_beta_apart : Run (AllocationStep defaultAllocator) ⟨boot Disk.empty,[]⟩ turnsTrace
      ⟨betaCreated,[shopAllocated,acmeCreated,boot Disk.empty]⟩ ∧
    ∀ transition ∈ turnsTrace, AddressesApart transition.after.current.disk := by
  have shop : Advances acmeCreated (allocateShop 2) shopAllocated := advances_apply (by decide +kernel)
  have beta : Advances shopAllocated (createTenantAt 3 "beta" 0xF0010000) betaCreated :=
    advances_apply (by decide +kernel)
  have shopComputed : computeServiceAddressAllocation acmeCreated.disk "acme" "shop" "web" =
      .ok (⟨"acme",0xF0000000,16,1⟩,⟨"acme","shop","web",0xF0000000⟩) := by decide +kernel
  have shopMissing : getServiceAddress acmeCreated.disk "acme" "shop" "web" = .ok none := by decide +kernel
  have shopAllocates : (allocateShop 2).AllocatesFrom defaultAllocator acmeCreated := by
    intro audited normal
    cases normal
    have role : "web" ∈ ({ replicas := (∅ : ExtTreeMap String UInt32 compare).insert "web" 1 } :
      WorkloadSpec).replicas := by
      simp
    have proposed : WorkloadController.allocateServiceAddress acmeCreated.disk "acme" "shop" "web" =
        .ok (some (.system (.allocateServiceAddress ⟨"acme",0xF0000000,16,1⟩ ⟨"acme","shop","web",0xF0000000⟩))) := by
      rw [WorkloadController.allocateServiceAddress,shopMissing,shopComputed]
      rfl
    exact .service role proposed
  have betaAllocates : (createTenantAt 3 "beta" 0xF0010000).AllocatesFrom defaultAllocator acmeCreated :=
    createTenant_allocates 3 (by decide +kernel) (by decide +kernel) (by decide +kernel)
  have run : Run (AllocationStep defaultAllocator) ⟨boot Disk.empty,[]⟩ turnsTrace
      ⟨betaCreated,[shopAllocated,acmeCreated,boot Disk.empty]⟩ := by
    apply Run.cons (commitStep (.inl rfl) acme_computed acme_advances)
    apply Run.cons (commitStep (.inl rfl) shopAllocates shop)
    apply Run.cons (commitStep (.inr mem_cons_self) betaAllocates beta)
    exact .nil _
  refine ⟨run,allocations_apart (allocated_empty rfl) run ?_⟩
  simp only [turnsTrace,mem_cons,not_mem_nil,or_false,forall_eq_or_imp,forall_eq]
  refine ⟨?_,?_,?_⟩ <;>
    intro audited normal <;>
    cases normal
  · show defaultAllocator.computeTenantBlockAllocation (boot Disk.empty).disk "acme" = .ok ⟨"acme",0xF0000000,16,0⟩
    decide +kernel
  · exact shopComputed
  · show defaultAllocator.computeTenantBlockAllocation shopAllocated.disk "beta" = .ok ⟨"beta",0xF0010000,16,0⟩
    decide +kernel

end

def validateTenantBlockPrefix (tenantBlockPrefix : UInt8) : Except String Unit :=
  if tenantBlockPrefix ≤ 4 then
    .error ("tenant_block_prefix must be > 4 (outer space is /4), got " ++ toString tenantBlockPrefix)
  else if tenantBlockPrefix = 8 then
    .error "tenant_block_prefix /8 exhausts 240.0.0.0/4 after 16 tenants; use /16 (default) or larger prefix"
  else if 30 < tenantBlockPrefix then
    .error ("tenant_block_prefix /" ++ toString tenantBlockPrefix ++ " leaves too few addresses per tenant")
  else .ok ()

theorem validateTenantBlockPrefix_new {tenantBlockPrefix : UInt8}
    (accepted : validateTenantBlockPrefix tenantBlockPrefix = .ok ()) :
    ∃ allocator, DummyIpAllocator.new tenantBlockPrefix = .ok allocator ∧
      allocator.tenantBlockPrefix = tenantBlockPrefix := by
  unfold validateTenantBlockPrefix at accepted
  split at accepted
  · cases accepted
  case isFalse above =>
    split at accepted
    · cases accepted
    split at accepted
    · cases accepted
    case isFalse below =>
      have bounds : dummySpacePrefix < tenantBlockPrefix ∧ tenantBlockPrefix ≤ 32 :=
        ⟨UInt8.not_le.mp above,UInt8.le_trans (UInt8.not_lt.mp below) (by decide)⟩
      exact ⟨_,dif_pos bounds,rfl⟩

theorem service_not_tenant (place : ServicePlace) : (asBytes "tenant:").isPrefixOf place.key = false := by
  have service : ∃ rest, place.key = 115::rest := by
    simp only [ServicePlace.key,serviceAddressKey,asBytes_append]
    exact ⟨_,rfl⟩
  obtain ⟨rest,same⟩ := service
  rw [same]
  rfl

section
variable [FleetosCore] [Formats]

def BlocksOf (allocator : DummyIpAllocator) (disk : Disk) : Prop :=
  ∀ key bytes, (disk .dummyIps)[key]? = some bytes → (asBytes "tenant:").isPrefixOf key = true →
    ∃ tenantId held, held.slot < allocator.slots ∧ key = tenantBlockKey tenantId ∧
      bytes = toAllocvec (allocator.block tenantId held)

def FreeIndex (allocator : DummyIpAllocator) (disk : Disk) (index : Nat) : Prop :=
  index < allocator.slots ∧ ∀ tenantId block, getTenantBlock disk tenantId = .ok (some block) →
    block.base ≠ allocator.blockBase (.ofNat index)

theorem Represents.blocksOf {allocator : DummyIpAllocator} {pools : AddressPools allocator} {disk : Disk}
    (represents : Represents pools disk) : BlocksOf allocator disk := by
  intro key bytes stored tenant
  rcases (represents key bytes).mp stored with ⟨tenantId,held,holds,named,same⟩ | ⟨place,_,_,_,_,rfl,_⟩
  · exact ⟨tenantId,held,pools.slot_lt holds,named,same⟩
  · rw [service_not_tenant] at tenant
    cases tenant

section
variable {allocator : DummyIpAllocator} {disk : Disk} (blocks : BlocksOf allocator disk) {tenantId : String}
  {index : Nat}

include blocks

theorem BlocksOf.block {block} (stored : getTenantBlock disk tenantId = .ok (some block)) :
    ∃ held, held.slot < allocator.slots ∧ block = allocator.block tenantId held := by
  obtain ⟨bytes,found,decoded⟩ := readEntry_some.mp stored
  obtain ⟨owner,held,bounded,named,rfl⟩ := blocks _ _ found (tenant_isPrefixOf tenantId)
  obtain rfl := tenantBlockKey_injective named
  rw [fromBytes_iff] at decoded
  exact ⟨held,bounded,decoded.symm⟩

theorem BlocksOf.free_iff (bounded : index < allocator.slots) :
    FreeIndex allocator disk index ↔ UInt32.ofNat index ∉ allocator.usedBlockIndices disk := by
  constructor
  · rintro ⟨_,free⟩ used
    obtain ⟨⟨key,bytes⟩,listed,recovered⟩ := mem_filterMap.mp used
    obtain ⟨entry,tenant⟩ := mem_filter.mp listed
    have stored := ExtTreeMap.mem_toList_iff_getElem?_eq_some.mp entry
    obtain ⟨tenantId,held,inside,rfl,rfl⟩ := blocks key bytes stored tenant
    refine free tenantId (allocator.block tenantId held) (readEntry_some.mpr ⟨_,stored,fromBytes_toAllocvec _⟩) ?_
    rw [fromBytes_toAllocvec] at recovered
    have index : allocator.blockIndex (allocator.blockBase (.ofNat held.slot)) = .ofNat _ := Option.some.inj recovered
    rw [allocator.blockIndex_slot inside] at index
    rw [DummyIpAllocator.block,index]
  · intro unused
    refine ⟨bounded,fun tenantId block found same => unused ?_⟩
    obtain ⟨bytes,stored,decoded⟩ := readEntry_some.mp found
    refine mem_filterMap.mpr ⟨(tenantBlockKey tenantId,bytes),mem_filter.mpr
      ⟨ExtTreeMap.mem_toList_iff_getElem?_eq_some.mpr stored,tenant_isPrefixOf tenantId⟩,?_⟩
    simp only [decoded,Except.toOption,Option.map_some,same,allocator.blockIndex_slot bounded]

theorem BlocksOf.compute (without : getTenantBlock disk tenantId = .ok none) :
    (∃ index, FreeIndex allocator disk index ∧ (∀ less, less < index → ¬FreeIndex allocator disk less) ∧
        allocator.computeTenantBlockAllocation disk tenantId = .ok (allocator.block tenantId ⟨index,0⟩)) ∨
      (∀ index, ¬FreeIndex allocator disk index) ∧
        allocator.computeTenantBlockAllocation disk tenantId = .error .tenantSpaceExhausted := by
  have search : ((List.range allocator.maxTenantBlocks.toNat).map UInt32.ofNat).find?
      (fun index => !(allocator.usedBlockIndices disk).contains index) =
      ((List.range allocator.slots).find? fun index =>
        !(allocator.usedBlockIndices disk).contains (UInt32.ofNat index)).map UInt32.ofNat := by
    rw [List.find?_map,allocator.maxTenantBlocks_toNat]
    rfl
  have computed : allocator.computeTenantBlockAllocation disk tenantId =
      (((List.range allocator.maxTenantBlocks.toNat).map UInt32.ofNat).find?
        fun index => !(allocator.usedBlockIndices disk).contains index).elim (.error .tenantSpaceExhausted)
        fun index => .ok ⟨tenantId,allocator.blockBase index,allocator.tenantBlockPrefix,0⟩ := by
    simp only [DummyIpAllocator.computeTenantBlockAllocation,without]
    cases List.find? _ _ <;> rfl
  rw [computed,search]
  cases found : (List.range allocator.slots).find? fun index =>
      !(allocator.usedBlockIndices disk).contains (UInt32.ofNat index) with
  | none =>
    refine .inr ⟨fun index free => ?_,rfl⟩
    have unused := (blocks.free_iff free.1).mp free
    rw [List.find?_range_eq_none] at found
    simpa [unused] using found index free.1
  | some index =>
    obtain ⟨unused,bounded,earlier⟩ := List.find?_range_eq_some.mp found
    rw [List.mem_range] at bounded
    refine .inl ⟨index,(blocks.free_iff bounded).mpr (by simpa using unused),?_,rfl⟩
    intro less below free
    have passed := earlier less below
    have unseen := (blocks.free_iff free.1).mp free
    simp [unseen] at passed

theorem BlocksOf.disjoint (free : FreeIndex allocator disk index)
    (found : getTenantBlock disk other = .ok (some stored)) (address : UInt32) :
    ¬((allocator.block tenantId ⟨index,0⟩).Contains address ∧ stored.Contains address) := by
  rintro ⟨here,there⟩
  obtain ⟨held,bounded,rfl⟩ := blocks.block found
  obtain ⟨offset,inside,low⟩ := (allocator.block_contains free.1 _ _).mp here
  obtain ⟨place,within,high⟩ := (allocator.block_contains bounded _ _).mp there
  have same : index = held.slot := (Pools.number_inj inside within (Nat.add_left_cancel (low.symm.trans high))).1
  apply free.2 other _ found
  rw [DummyIpAllocator.block,same]

end

/-- A tenant without a block is given the one at the least free index, if there is a free index at all. -/
theorem tenant_block_at_least_free_index (tenantBlockPrefix : UInt8)
    (accepted : validateTenantBlockPrefix tenantBlockPrefix = .ok ()) :
    ∃ allocator, DummyIpAllocator.new tenantBlockPrefix = .ok allocator ∧
      allocator.maxTenantBlocks.toNat = 2^(tenantBlockPrefix.toNat - 4) ∧
      ∀ (disk : Disk) (tenantId : String), BlocksOf allocator disk → getTenantBlock disk tenantId = .ok none →
        ((∃ block, allocator.computeTenantBlockAllocation disk tenantId = .ok block) ↔
          ∃ index, FreeIndex allocator disk index) ∧
        ∀ block, allocator.computeTenantBlockAllocation disk tenantId = .ok block →
          (∃ index, FreeIndex allocator disk index ∧ (∀ less, less < index → ¬FreeIndex allocator disk less) ∧
            block.base.toNat = dummySpaceBase.toNat + index * 2^(32 - tenantBlockPrefix.toNat)) ∧
          block.tenantId = tenantId ∧ block.prefixLen = tenantBlockPrefix ∧ block.nextOffset = 0 ∧
          block.maxHosts.toNat = 2^(32 - tenantBlockPrefix.toNat) ∧ dummySpaceBase ≤ block.base ∧
          block.base.toNat + block.maxHosts.toNat ≤ dummySpaceBase.toNat + 2^28 ∧
          ∀ other stored, getTenantBlock disk other = .ok (some stored) →
            dummySpaceBase ≤ stored.base ∧ ∀ address, ¬(block.Contains address ∧ stored.Contains address) := by
  obtain ⟨allocator,made,rfl⟩ := validateTenantBlockPrefix_new accepted
  refine ⟨allocator,made,allocator.maxTenantBlocks_toNat,?_⟩
  intro disk tenantId blocks without
  have above : ∀ {held : Held} (owner : String), held.slot < allocator.slots →
      dummySpaceBase ≤ (allocator.block owner held).base := by
    intro held owner bounded
    rw [UInt32.le_iff_toNat_le,allocator.block_base_toNat bounded]
    exact Nat.le_add_right _ _
  rcases blocks.compute without with ⟨index,free,least,computed⟩ | ⟨nothing,refused⟩
  · refine ⟨⟨fun _ => ⟨index,free⟩,fun _ => ⟨_,computed⟩⟩,fun block made => ?_⟩
    cases computed.symm.trans made
    have base := allocator.block_base_toNat free.1 tenantId 0
    have hosts : (allocator.block tenantId ⟨index,0⟩).maxHosts.toNat = allocator.size := allocator.maxHosts_toNat rfl
    have top := allocator.block_top free.1
    refine ⟨⟨index,free,least,base⟩,rfl,rfl,rfl,hosts,above tenantId free.1,by omega,?_⟩
    intro other stored found
    refine ⟨?_,blocks.disjoint free found⟩
    obtain ⟨held,bounded,rfl⟩ := blocks.block found
    exact above other bounded
  · refine ⟨⟨?_,fun ⟨index,free⟩ => absurd free (nothing index)⟩,?_⟩
    · rintro ⟨block,made⟩
      cases refused.symm.trans made
    · intro block made
      cases refused.symm.trans made

end

open Reference NoMessages

theorem first_tenant_gets_a_block : validateTenantBlockPrefix 16 = .ok () ∧
    ∃ allocator, DummyIpAllocator.new 16 = .ok allocator ∧
      ∃ block, allocator.computeTenantBlockAllocation Disk.empty "acme" = .ok block := by
  refine ⟨by decide,?_⟩
  obtain ⟨allocator,made,_,gives⟩ := tenant_block_at_least_free_index 16 (by decide)
  refine ⟨allocator,made,(gives Disk.empty "acme" ?_ rfl).1.mpr ⟨0,?_⟩⟩
  · intro key bytes stored
    simp [Disk.empty] at stored
  · refine ⟨Nat.two_pow_pos _,fun tenantId block found => ?_⟩
    obtain ⟨bytes,stored,_⟩ := readEntry_some.mp found
    simp [Disk.empty] at stored

end FleetosControl
