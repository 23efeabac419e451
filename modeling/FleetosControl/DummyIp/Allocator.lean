import FleetosControl.Admin.Service
import FleetosControl.Lib.Pools

/-! Dummy addresses from `240.0.0.0/4`. The space is cut into tenant blocks, and a tenant's services
get the addresses of its block in order. -/
namespace FleetosControl
open Wire Allocation

def dummySpaceBase : UInt32 := 0xF0000000

def dummySpacePrefix : UInt8 := 4

inductive DummyIpError where
  | tenantSpaceExhausted
  | serviceSpaceExhausted (tenantId : String)
  | tenantNotFound (tenantId : String)
  | tenantAlreadyAllocated (tenantId : String)
  | invalidPrefixLength (length : UInt8)
  | serialization (source : String)
  -- the `unwrap` of a tenant block that is missing
  | panicked
  deriving DecidableEq

def DummyIpError.display : DummyIpError → String
  | .tenantSpaceExhausted => "address space exhausted: cannot allocate tenant block"
  | .serviceSpaceExhausted tenantId => "tenant block exhausted for " ++ tenantId ++ ": cannot allocate service address"
  | .tenantNotFound tenantId => "tenant not found: " ++ tenantId
  | .tenantAlreadyAllocated tenantId => "tenant already has a block: " ++ tenantId
  | .invalidPrefixLength length => "invalid prefix length: " ++ toString length ++ " (must be > 4 and <= 32)"
  | .serialization source => "serialization error: " ++ source
  | .panicked => "called `Option::unwrap()` on a `None` value"

def TenantBlock.maxHosts (block : TenantBlock) : UInt32 := 1 <<< (32 - block.prefixLen).toUInt32

theorem one_shiftLeft {bits : UInt32} (small : bits.toNat < 32) : (1 <<< bits : UInt32).toNat = 2 ^ bits.toNat := by
  rw [UInt32.toNat_shiftLeft,Nat.mod_eq_of_lt small,Nat.shiftLeft_eq,UInt32.toNat_one,Nat.one_mul]
  exact Nat.mod_eq_of_lt (Nat.pow_lt_pow_right (by decide) small)

variable {block : TenantBlock} {storage : Disk} {key : Bytes} {tenantId role : String}

theorem TenantBlock.maxHosts_toNat (positive : 0 < block.prefixLen) (atMost : block.prefixLen ≤ 32) :
    block.maxHosts.toNat = 2 ^ (32 - block.prefixLen.toNat) := by
  have some : 0 < block.prefixLen.toNat := UInt8.lt_iff_toNat_lt.mp positive
  have bits : (32 - block.prefixLen).toUInt32.toNat = 32 - block.prefixLen.toNat := by
    rw [UInt8.toNat_toUInt32,UInt8.toNat_sub_of_le _ _ atMost]
    rfl
  rw [maxHosts,one_shiftLeft (by omega),bits]

structure DummyIpAllocator where
  tenantBlockPrefix : UInt8
  above : dummySpacePrefix < tenantBlockPrefix
  atMost : tenantBlockPrefix ≤ 32

def serviceAddressKey (tenantId service role : String) : Bytes :=
  asBytes ("service:" ++ tenantId ++ ":" ++ service ++ ":" ++ role)

namespace DummyIpAllocator

def new (tenantBlockPrefix : UInt8) : Except DummyIpError DummyIpAllocator :=
  if bounds : dummySpacePrefix < tenantBlockPrefix ∧ tenantBlockPrefix ≤ 32 then
    .ok ⟨tenantBlockPrefix,bounds.1,bounds.2⟩
  else .error (.invalidPrefixLength tenantBlockPrefix)

variable (allocator : DummyIpAllocator)

def hostBits : UInt8 := 32 - allocator.tenantBlockPrefix

def maxTenantBlocks : UInt32 := 1 <<< (allocator.tenantBlockPrefix - dummySpacePrefix).toUInt32

def blockBase (blockIndex : UInt32) : UInt32 := dummySpaceBase + (blockIndex <<< allocator.hostBits.toUInt32)

def blockIndex (base : UInt32) : UInt32 := (base - dummySpaceBase) >>> allocator.hostBits.toUInt32

section
def slots : Nat := 2 ^ (allocator.tenantBlockPrefix.toNat - 4)

def size : Nat := 2 ^ (32 - allocator.tenantBlockPrefix.toNat)

theorem prefix_bounds : 4 < allocator.tenantBlockPrefix.toNat ∧ allocator.tenantBlockPrefix.toNat ≤ 32 :=
  ⟨UInt8.lt_iff_toNat_lt.mp allocator.above,UInt8.le_iff_toNat_le.mp allocator.atMost⟩

theorem slots_size : allocator.slots * allocator.size = 2 ^ 28 := by
  obtain ⟨above,atMost⟩ := allocator.prefix_bounds
  have bits : allocator.tenantBlockPrefix.toNat - 4 + (32 - allocator.tenantBlockPrefix.toNat) = 28 := by omega
  rw [slots,size,← Nat.pow_add,bits]

theorem size_pos : 0 < allocator.size := Nat.two_pow_pos _

theorem size_lt : allocator.size < 2 ^ 32 := by
  obtain ⟨above,atMost⟩ := allocator.prefix_bounds
  exact Nat.pow_lt_pow_right (by decide) (by omega)

theorem slots_le : allocator.slots ≤ 2 ^ 28 := by
  rw [← slots_size]
  exact Nat.le_mul_of_pos_right _ allocator.size_pos

theorem hostBits_toNat : allocator.hostBits.toUInt32.toNat = 32 - allocator.tenantBlockPrefix.toNat := by
  rw [UInt8.toNat_toUInt32,hostBits,UInt8.toNat_sub_of_le _ _ allocator.atMost]
  rfl

theorem hostBits_lt : allocator.hostBits.toUInt32.toNat < 32 := by
  obtain ⟨above,atMost⟩ := allocator.prefix_bounds
  rw [hostBits_toNat]
  omega

theorem maxTenantBlocks_toNat : allocator.maxTenantBlocks.toNat = allocator.slots := by
  obtain ⟨above,atMost⟩ := allocator.prefix_bounds
  have bits : (allocator.tenantBlockPrefix - dummySpacePrefix).toUInt32.toNat =
      allocator.tenantBlockPrefix.toNat - 4 := by
    rw [UInt8.toNat_toUInt32,UInt8.toNat_sub_of_le _ _ (UInt8.le_of_lt allocator.above)]
    rfl
  rw [maxTenantBlocks,one_shiftLeft (by omega),bits,slots]

theorem maxHosts_toNat {block : TenantBlock} (own : block.prefixLen = allocator.tenantBlockPrefix) :
    block.maxHosts.toNat = allocator.size := by
  have positive : 0 < block.prefixLen := by
    rw [own]
    exact UInt8.lt_trans (by decide) allocator.above
  rw [block.maxHosts_toNat positive (own ▸ allocator.atMost),own,size]

theorem block_top {index : Nat} (bounded : index < allocator.slots) :
    index * allocator.size + allocator.size ≤ 2 ^ 28 := by
  rw [← Nat.succ_mul,← slots_size]
  exact Nat.mul_le_mul_right _ bounded

variable {index : UInt32} {slot : Nat}

section
variable (bounded : index.toNat < allocator.slots)
include bounded

theorem shifted_toNat : (index <<< allocator.hostBits.toUInt32).toNat = index.toNat * allocator.size := by
  have top := allocator.block_top bounded
  rw [UInt32.toNat_shiftLeft,Nat.mod_eq_of_lt allocator.hostBits_lt,Nat.shiftLeft_eq,hostBits_toNat]
  change index.toNat * allocator.size % 2 ^ 32 = _
  exact Nat.mod_eq_of_lt (by omega)

theorem blockBase_toNat :
    (allocator.blockBase index).toNat = dummySpaceBase.toNat + index.toNat * allocator.size := by
  have shifted := allocator.shifted_toNat bounded
  have top := allocator.block_top bounded
  have base : dummySpaceBase.toNat = 0xF0000000 := rfl
  have positive := allocator.size_pos
  rw [blockBase,UInt32.toNat_add,shifted,base]
  exact Nat.mod_eq_of_lt (by omega)

theorem blockIndex_blockBase : allocator.blockIndex (allocator.blockBase index) = index := by
  apply UInt32.toNat.inj
  have difference : (allocator.blockBase index - dummySpaceBase).toNat = index.toNat * allocator.size := by
    rw [UInt32.toNat_sub_of_le _ _ (UInt32.le_iff_toNat_le.mpr (by rw [blockBase_toNat _ bounded]; omega)),
      blockBase_toNat _ bounded]
    omega
  rw [blockIndex,UInt32.toNat_shiftRight,difference,Nat.mod_eq_of_lt allocator.hostBits_lt,
    Nat.shiftRight_eq_div_pow,hostBits_toNat]
  exact Nat.mul_div_cancel _ allocator.size_pos

end

theorem slot_toNat (bounded : slot < allocator.slots) : (UInt32.ofNat slot).toNat = slot := by
  have small := allocator.slots_le
  rw [UInt32.toNat_ofNat',Nat.mod_eq_of_lt (by omega)]

theorem blockIndex_slot (bounded : slot < allocator.slots) :
    allocator.blockIndex (allocator.blockBase (.ofNat slot)) = .ofNat slot :=
  allocator.blockIndex_blockBase (by rw [allocator.slot_toNat bounded]; exact bounded)

theorem address_toNat {block : Held} {offset : Nat} (bounded : block.slot < allocator.slots)
    (inside : offset < allocator.size) :
    (allocator.blockBase (.ofNat block.slot) + .ofNat offset).toNat =
      dummySpaceBase.toNat + Pools.number allocator.size block offset := by
  have slot := allocator.slot_toNat bounded
  have below := allocator.size_lt
  have taken : (UInt32.ofNat offset).toNat = offset := by
    rw [UInt32.toNat_ofNat']
    exact Nat.mod_eq_of_lt (by omega)
  have inSpace := Pools.number_lt bounded inside
  rw [slots_size] at inSpace
  have base : dummySpaceBase.toNat = 0xF0000000 := rfl
  rw [UInt32.toNat_add,blockBase_toNat _ (by rw [slot]; exact bounded),slot,taken,base]
  unfold Pools.number at inSpace ⊢
  omega

end

end DummyIpAllocator

def readEntry (α : Type) [Postcard α] (storage : Disk) (key : Bytes) : Except DummyIpError (Option α) :=
  match (storage .dummyIps)[key]? with
  | some bytes => ((fromBytes bytes).mapError DummyIpError.serialization).map some
  | none => .ok none

theorem readEntry_some {α : Type} [Postcard α] {value} : readEntry α storage key = .ok (some value) ↔
      ∃ bytes, (storage .dummyIps)[key]? = some bytes ∧ fromBytes bytes = .ok value := by
  unfold readEntry
  cases (storage .dummyIps)[key]? with
  | none => simp
  | some bytes => cases decoded : fromBytes (α := α) bytes <;> simp [decoded,Except.mapError,Except.map]

theorem readEntry_none {α : Type} [Postcard α] :
    readEntry α storage key = .ok none ↔ (storage .dummyIps)[key]? = none := by
  unfold readEntry
  cases (storage .dummyIps)[key]? with
  | none => simp
  | some bytes => cases decoded : fromBytes (α := α) bytes <;> simp [decoded,Except.mapError,Except.map]

variable [FleetosCore] [Formats]

def getTenantBlock (storage : Disk) (tenantId : String) : Except DummyIpError (Option TenantBlock) :=
  readEntry TenantBlock storage (tenantBlockKey tenantId)

def getServiceAddress (storage : Disk) (tenantId service role : String) : Except DummyIpError (Option ServiceAddress) :=
  readEntry ServiceAddress storage (serviceAddressKey tenantId service role)

namespace DummyIpAllocator

def usedBlockIndices (allocator : DummyIpAllocator) (storage : Disk) : List UInt32 :=
  ((storage .dummyIps).toList.filter fun entry => (asBytes "tenant:").isPrefixOf entry.1).filterMap fun entry =>
    (fromBytes (α := TenantBlock) entry.2).toOption.map fun block => allocator.blockIndex block.base

def computeTenantBlockAllocation (allocator : DummyIpAllocator) (storage : Disk) (tenantId : String) :
    Except DummyIpError TenantBlock := do
  if (← getTenantBlock storage tenantId).isSome then .error (.tenantAlreadyAllocated tenantId)
  else
    let used := allocator.usedBlockIndices storage
    match ((List.range allocator.maxTenantBlocks.toNat).map UInt32.ofNat).find? fun index => !used.contains index with
    | some index => .ok ⟨tenantId,allocator.blockBase index,allocator.tenantBlockPrefix,0⟩
    | none => .error .tenantSpaceExhausted

end DummyIpAllocator

def computeServiceAddressAllocation (storage : Disk) (tenantId service role : String) :
    Except DummyIpError (TenantBlock × ServiceAddress) := do
  match ← getServiceAddress storage tenantId service role with
  | some existing =>
    match ← getTenantBlock storage tenantId with
    | some block => .ok (block,existing)
    | none => .error .panicked
  | none =>
    match ← getTenantBlock storage tenantId with
    | none => .error (.tenantNotFound tenantId)
    | some block =>
      if block.maxHosts ≤ block.nextOffset then .error (.serviceSpaceExhausted tenantId)
      else .ok ({ block with nextOffset := block.nextOffset + 1 },
        ⟨tenantId,service,role,block.base + block.nextOffset⟩)

def getTenant (storage : Disk) (tenantId : String) : Except String (Option TenantRecord) :=
  match (storage .tenants)[asBytes tenantId]? with
  | some bytes => ((fromBytes bytes).mapError fun e => "serialization error: " ++ e).map some
  | none => .ok none

def AdminServer.createTenant (server : AdminServer) (allocator : DummyIpAllocator) (peer : Peer)
    (requestId tenantId : String) : Except Status AuditedCommand := do
  verifyCaller peer
  server.requireClusterAdminWrite peer
  validateIdentifier tenantId "tenant_id"
  let audit := server.buildAuditContext peer requestId tenantId
  let existing ← (getTenant server.storage tenantId).mapError fun e => ⟨.internal,"storage read failed: " ++ e⟩
  if existing.isSome then .error ⟨.alreadyExists,"tenant '" ++ tenantId ++ "' already exists"⟩
  else
    let block ← (allocator.computeTenantBlockAllocation server.storage tenantId).mapError fun e =>
      ⟨.internal,"failed to allocate dummy IP block: " ++ e.display⟩
    pure ⟨.createTenant ⟨tenantId,server.now,[]⟩ block,some audit⟩

namespace WorkloadController

/-- One round of the loop over the roles of a workload; the next round starts once the proposal has been applied. -/
def allocateServiceAddress (storage : Disk) (tenantId workloadId role : String) :
    Except DummyIpError (Option AuditedCommand) := do
  match ← getServiceAddress storage tenantId workloadId role with
  | some _ => pure none
  | none =>
    let (block,address) ← computeServiceAddressAllocation storage tenantId workloadId role
    pure (some (.system (.allocateServiceAddress block address)))

end WorkloadController

namespace DummyIpAllocator

theorem computeTenantBlockAllocation_ok {allocator : DummyIpAllocator}
    (ok : allocator.computeTenantBlockAllocation storage tenantId = .ok block) :
    (storage .dummyIps)[tenantBlockKey tenantId]? = none ∧ ∃ slot, slot < allocator.slots ∧
      UInt32.ofNat slot ∉ allocator.usedBlockIndices storage ∧
      block = ⟨tenantId,allocator.blockBase (.ofNat slot),allocator.tenantBlockPrefix,0⟩ := by
  obtain ⟨found,read,ok⟩ := bind_ok ok
  cases found with
  | some taken => cases ok
  | none =>
    simp only [Option.isSome_none,Bool.false_eq_true,↓reduceIte] at ok
    refine ⟨readEntry_none.mp read,?_⟩
    split at ok
    case h_2 => cases ok
    case h_1 index first =>
      cases ok
      obtain ⟨slot,inRange,rfl⟩ := mem_map.mp (List.mem_of_find?_eq_some first)
      have free := List.find?_some first
      rw [List.mem_range,maxTenantBlocks_toNat] at inRange
      exact ⟨slot,inRange,by simpa using free,rfl⟩

end DummyIpAllocator

theorem AdminServer.createTenant_eq {server : AdminServer} {allocator : DummyIpAllocator}
    (caller : verifyCaller peer = .ok ()) (admin : server.requireClusterAdminWrite peer = .ok ())
    (valid : validateIdentifier tenantId "tenant_id" = .ok ())
    (missing : (server.storage .tenants)[asBytes tenantId]? = none)
    (computed : allocator.computeTenantBlockAllocation server.storage tenantId = .ok block) :
    server.createTenant allocator peer requestId tenantId = .ok ⟨.createTenant ⟨tenantId,server.now,[]⟩ block,
      some (server.buildAuditContext peer requestId tenantId)⟩ := by
  have read : getTenant server.storage tenantId = .ok none := by rw [getTenant,missing]
  simp only [AdminServer.createTenant,caller,admin,valid,read,computed,bind,Except.bind,Except.mapError]
  rfl

theorem computeServiceAddressAllocation_ok
    (ok : computeServiceAddressAllocation storage tenantId service role = .ok (block,address)) :
    ∃ stored, getTenantBlock storage tenantId = .ok (some stored) ∧
      (block = stored ∧ getServiceAddress storage tenantId service role = .ok (some address) ∨
        (storage .dummyIps)[serviceAddressKey tenantId service role]? = none ∧
          stored.nextOffset < stored.maxHosts ∧ block = { stored with nextOffset := stored.nextOffset + 1 } ∧
          address = ⟨tenantId,service,role,stored.base + stored.nextOffset⟩) := by
  obtain ⟨found,read,ok⟩ := bind_ok ok
  cases found with
  | some existing =>
    obtain ⟨stored,held,ok⟩ := bind_ok ok
    cases stored with
    | none => cases ok
    | some stored =>
      cases ok
      exact ⟨_,held,.inl ⟨rfl,read⟩⟩
  | none =>
    obtain ⟨stored,held,ok⟩ := bind_ok ok
    cases stored with
    | none => cases ok
    | some stored =>
      simp only at ok
      split at ok
      · cases ok
      case isFalse room =>
        cases ok
        exact ⟨stored,held,.inr ⟨readEntry_none.mp read,UInt32.not_le.mp room,rfl,rfl⟩⟩

theorem WorkloadController.allocateServiceAddress_some
    (ok : allocateServiceAddress storage tenantId workloadId role = .ok (some audited)) :
    ∃ block address, audited = .system (.allocateServiceAddress block address) ∧
      computeServiceAddressAllocation storage tenantId workloadId role = .ok (block,address) := by
  obtain ⟨existing,_,ok⟩ := bind_ok ok
  cases existing with
  | some address => cases ok
  | none =>
    obtain ⟨computed,made,ok⟩ := bind_ok ok
    cases ok
    exact ⟨_,_,rfl,made⟩

end FleetosControl
