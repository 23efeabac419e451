import FleetosControl.DummyIp.Allocations

/-! Addresses of services. A block is a roster of its (service, role) pairs, which the store finds
by a text that two pairs may share. -/
namespace FleetosControl
open KeyValue Trace Allocation

structure BlockSpan where
  base : UInt32
  prefixLen : UInt8
  positive : 0 < prefixLen
  atMost : prefixLen ≤ 32
  fits : base.toNat + 2^(32 - prefixLen.toNat) ≤ 2^32

namespace BlockSpan

def size (span : BlockSpan) : Nat := 2^(32 - span.prefixLen.toNat)

theorem size_lt (span : BlockSpan) : span.size < 2^32 := by
  have positive := UInt8.lt_iff_toNat_lt.mp span.positive
  have atMost := UInt8.le_iff_toNat_le.mp span.atMost
  rw [UInt8.toNat_zero] at positive
  exact Nat.pow_lt_pow_right (by decide) (by change span.prefixLen.toNat ≤ 32 at atMost; omega)

end BlockSpan

structure ServedBlock where
  span : BlockSpan
  roster : Roster (String × String) span.size

namespace ServedBlock

def block (served : ServedBlock) (tenantId : String) : TenantBlock :=
  ⟨tenantId,served.span.base,served.span.prefixLen,.ofNat served.roster.places.length⟩

def address (served : ServedBlock) (place : ServicePlace) (position : Nat) : ServiceAddress :=
  ⟨place.tenantId,place.service,place.role,served.span.base + .ofNat position⟩

def Serves (served : ServedBlock) (place : ServicePlace) (position : Nat) : Prop :=
  served.roster.places[position]? = some (place.service,place.role)

theorem maxHosts_toNat (served : ServedBlock) (tenantId : String) :
    (served.block tenantId).maxHosts.toNat = served.span.size :=
  TenantBlock.maxHosts_toNat served.span.positive served.span.atMost

theorem length_lt (served : ServedBlock) : served.roster.places.length < 2^32 :=
  Nat.lt_of_le_of_lt served.roster.bounded served.span.size_lt

theorem nextOffset_toNat (served : ServedBlock) (tenantId : String) :
    (served.block tenantId).nextOffset.toNat = served.roster.places.length := by
  rw [block,UInt32.toNat_ofNat',Nat.mod_eq_of_lt served.length_lt]

variable {position : Nat} {served : ServedBlock} {place other : ServicePlace}

theorem address_toNat (served : ServedBlock) (place : ServicePlace) (inside : position < served.span.size) :
    (served.address place position).address.toNat = served.span.base.toNat + position := by
  have fits : served.span.base.toNat + served.span.size ≤ 2^32 := served.span.fits
  rw [address,UInt32.toNat_add,UInt32.toNat_ofNat',Nat.mod_eq_of_lt (by omega : position < 2^32),Nat.mod_eq_of_lt (by omega)]

def add (served : ServedBlock) (place : ServicePlace) (fresh : (place.service,place.role) ∉ served.roster.places)
    (room : served.roster.places.length < served.span.size) : ServedBlock :=
  ⟨served.span,served.roster.add (place.service,place.role) fresh room⟩

theorem add_serves {fresh room} (mine : other.tenantId = place.tenantId) :
    (served.add place fresh room).Serves other position ↔
      served.Serves other position ∨ position = served.roster.places.length ∧ other = place := by
  rw [Serves,add,Roster.add_position,Serves]
  refine or_congr_right (and_congr_right fun _ => ?_)
  cases other
  cases place
  simp_all

theorem add_block (served : ServedBlock) (place : ServicePlace) (fresh : (place.service,place.role) ∉ served.roster.places)
    (room : served.roster.places.length < served.span.size) :
    { served.block place.tenantId with nextOffset := (served.block place.tenantId).nextOffset + 1 } =
      (served.add place fresh room).block place.tenantId := by
  simp [block,add,Roster.add]

theorem full_iff (served : ServedBlock) (tenantId : String) :
    (served.block tenantId).maxHosts ≤ (served.block tenantId).nextOffset ↔
      served.span.size ≤ served.roster.places.length := by
  rw [UInt32.le_iff_toNat_le,served.maxHosts_toNat,served.nextOffset_toNat]

theorem address_eq {address : UInt32}
    (same : ⟨place.tenantId,place.service,place.role,address⟩ = served.address other position) :
    place = other ∧ address = (served.address other position).address := by
  cases place
  cases other
  simp_all [ServedBlock.address]

theorem contains_iff (served : ServedBlock) (tenantId : String) (address : UInt32) :
    (served.block tenantId).Contains address ↔
      ∃ position, position < served.span.size ∧ address.toNat = served.span.base.toNat + position := by
  rw [TenantBlock.Contains,served.maxHosts_toNat]
  change served.span.base.toNat ≤ _ ∧ _ < served.span.base.toNat + _ ↔ _
  constructor
  · rintro ⟨low,high⟩
    exact ⟨address.toNat - served.span.base.toNat,by omega,by omega⟩
  · rintro ⟨position,inside,same⟩
    omega

end ServedBlock

theorem serviceKey_injective {left right : ServicePlace} (tenant : ':' ∉ left.tenantId.toList)
    (service : ':' ∉ left.service.toList) (owner : ':' ∉ right.tenantId.toList) (other : ':' ∉ right.service.toList)
    (same : left.key = right.key) : left = right := by
  have texts := congrArg String.toList (asBytes_injective same)
  simp only [String.toList_append,List.append_assoc] at texts
  have tenants := List.append_cancel_left texts
  obtain ⟨first,rest⟩ := (Separated.join_inj_first tenant owner).mp tenants
  obtain ⟨second,third⟩ := (Separated.join_inj_first service other).mp rest
  cases left
  cases right
  rw [ServicePlace.mk.injEq]
  exact ⟨String.toList_inj.mp first,String.toList_inj.mp second,String.toList_inj.mp third⟩

section
variable [FleetosCore] [Formats] {before after left right : Disk} {place : ServicePlace}

abbrev ServicePlace.allocation (place : ServicePlace) (disk : Disk) : Except DummyIpError (TenantBlock × ServiceAddress) :=
  computeServiceAddressAllocation disk place.tenantId place.service place.role

/-- The store holds the served blocks and the addresses of their pairs, and nothing else. -/
def Keeps (served : String → Option ServedBlock) (disk : Disk) : Prop :=
  ∀ key bytes, (disk .dummyIps)[key]? = some bytes ↔
    (∃ tenantId block, served tenantId = some block ∧ key = tenantBlockKey tenantId ∧
      bytes = toAllocvec (block.block tenantId)) ∨
    ∃ place block position, served place.tenantId = some block ∧ block.Serves place position ∧ key = place.key ∧
      bytes = toAllocvec (block.address place position)

section
variable {served : String → Option ServedBlock} {disk : Disk} (keeps : Keeps served disk) {tenantId : String}
  {place : ServicePlace}

include keeps

theorem Keeps.stored_block {block} (holds : served tenantId = some block) :
    (disk .dummyIps)[tenantBlockKey tenantId]? = some (toAllocvec (block.block tenantId)) :=
  (keeps _ _).mpr (.inl ⟨tenantId,block,holds,rfl,rfl⟩)

theorem Keeps.stored_address {block} {position : Nat} (holds : served place.tenantId = some block)
    (serves : block.Serves place position) :
    (disk .dummyIps)[place.key]? = some (toAllocvec (block.address place position)) :=
  (keeps _ _).mpr (.inr ⟨place,block,position,holds,serves,rfl,rfl⟩)

theorem Keeps.block {block} : getTenantBlock disk tenantId = .ok (some block) ↔
      ∃ mine, served tenantId = some mine ∧ block = mine.block tenantId := by
  rw [getTenantBlock,readEntry_some]
  constructor
  · rintro ⟨bytes,stored,decoded⟩
    rcases (keeps _ _).mp stored with ⟨owner,mine,holds,named,rfl⟩ | ⟨place,_,_,_,_,named,_⟩
    · obtain rfl := tenantBlockKey_injective named
      rw [fromBytes_iff] at decoded
      exact ⟨mine,holds,decoded.symm⟩
    · exact (tenantBlockKey_ne tenantId place named).elim
  · rintro ⟨mine,holds,rfl⟩
    exact ⟨_,keeps.stored_block holds,fromBytes_toAllocvec _⟩

theorem Keeps.under (place : ServicePlace) : (disk .dummyIps)[place.key]? = none ∨
      ∃ other block position, served other.tenantId = some block ∧ block.Serves other position ∧ other.key = place.key ∧
        getServiceAddress disk place.tenantId place.service place.role = .ok (some (block.address other position)) := by
  cases stored : (disk .dummyIps)[place.key]? with
  | none => exact .inl rfl
  | some bytes =>
    rcases (keeps _ _).mp stored with ⟨owner,_,_,named,_⟩ | ⟨other,block,position,holds,serves,named,rfl⟩
    · exact (tenantBlockKey_ne owner place named.symm).elim
    · exact .inr ⟨other,block,position,holds,serves,named.symm,
        readEntry_some.mpr ⟨_,stored,fromBytes_toAllocvec _⟩⟩

theorem Keeps.holds {address : UInt32} :
    HoldsAddress disk place address ↔ ∃ block position, served place.tenantId = some block ∧
      block.Serves place position ∧ address = (block.address place position).address := by
  constructor
  · intro found
    obtain ⟨bytes,stored,decoded⟩ := readEntry_some.mp found
    rcases keeps.under place with absent | ⟨other,block,position,holds,serves,_,under⟩
    · cases stored.symm.trans absent
    · obtain ⟨rfl,rfl⟩ := ServedBlock.address_eq (Option.some.inj (Except.ok.inj (found.symm.trans under)))
      exact ⟨block,position,holds,serves,rfl⟩
  · rintro ⟨block,position,holds,serves,rfl⟩
    exact readEntry_some.mpr ⟨_,keeps.stored_address holds serves,fromBytes_toAllocvec _⟩

theorem Keeps.unserved {block} (holds : served place.tenantId = some block)
    (absent : (disk .dummyIps)[place.key]? = none) : (place.service,place.role) ∉ block.roster.places := by
  intro member
  obtain ⟨position,inside,same⟩ := List.mem_iff_getElem.mp member
  have serves : block.Serves place position := List.getElem?_eq_some_iff.mpr ⟨inside,same⟩
  cases absent.symm.trans (keeps.stored_address holds serves)

end

/-- One allocation: what the store computes is committed, and a refusal changes nothing. -/
inductive Allocates : Disk → ServicePlace → Disk → Prop where
  | committed {before : Disk} {place : ServicePlace} {block : TenantBlock} {address : ServiceAddress}
      {writes : List Write} {kind : ChangeKind} :
      place.allocation before = .ok (block,address) →
      applyCommand before (.allocateServiceAddress block address) = .ok (writes,kind) →
      Allocates before place (commit before writes)
  | refused {before : Disk} {place : ServicePlace} {error : DummyIpError} :
      place.allocation before = .error error → Allocates before place before

theorem Allocates.committed_contents {block address} (allocates : Allocates before place after)
    (computed : place.allocation before = .ok (block,address)) :
    after .dummyIps = ((before .dummyIps).insert (tenantBlockKey block.tenantId) (toAllocvec block)).insert
      (serviceAddressKey address.tenantId address.service address.role) (toAllocvec address) := by
  cases allocates with
  | committed again ok =>
    cases computed.symm.trans again
    cases ok
    simp [put,perform,Write.on,serviceAddressKey]
  | refused failed => cases computed.symm.trans failed

theorem Allocates.refused_same {error} (allocates : Allocates before place after)
    (failed : place.allocation before = .error error) : after = before := by
  cases allocates with
  | committed computed => cases computed.symm.trans failed
  | refused => rfl

def KeyOwned (disk : Disk) (place : ServicePlace) : Prop :=
  ∀ other address, HoldsAddress disk other address → other.key = place.key → other = place

section
variable {served : String → Option ServedBlock} {before after : Disk} (keeps : Keeps served before)
  {place : ServicePlace} {block : ServedBlock} (holds : served place.tenantId = some block)
include keeps holds

theorem Keeps.added (fresh : (place.service,place.role) ∉ block.roster.places)
    (room : block.roster.places.length < block.span.size) (absent : (before .dummyIps)[place.key]? = none)
    (written : after .dummyIps = ((before .dummyIps).insert (tenantBlockKey place.tenantId)
      (toAllocvec ((block.add place fresh room).block place.tenantId))).insert place.key
        (toAllocvec (block.address place block.roster.places.length))) :
    Keeps (Function.update served place.tenantId (some (block.add place fresh room))) after := by
  intro key bytes
  rw [written,insert_eq_some,insert_eq_some,keeps]
  constructor
  · rintro (⟨rfl,rfl⟩ | ⟨apart,⟨rfl,rfl⟩ | ⟨different,⟨owner,kept,own,rfl,rfl⟩ | ⟨other,mine,position,own,serves,rfl,rfl⟩⟩⟩)
    · exact .inr ⟨place,block.add place fresh room,_,Function.update_self _ _ _,
        (ServedBlock.add_serves rfl).mpr (.inr ⟨rfl,rfl⟩),rfl,rfl⟩
    · exact .inl ⟨place.tenantId,_,Function.update_self _ _ _,rfl,rfl⟩
    · have elsewhere : owner ≠ place.tenantId := fun same => different (by rw [same])
      exact .inl ⟨owner,kept,update_eq_some.mpr (.inr ⟨elsewhere,own⟩),rfl,rfl⟩
    · by_cases tenant : other.tenantId = place.tenantId
      · rw [tenant,holds,Option.some.injEq] at own
        subst own
        exact .inr ⟨other,_,position,update_eq_some.mpr (.inl ⟨tenant,rfl⟩),
          (ServedBlock.add_serves tenant).mpr (.inl serves),rfl,rfl⟩
      · exact .inr ⟨other,mine,position,update_eq_some.mpr (.inr ⟨tenant,own⟩),serves,rfl,rfl⟩
  · rintro (⟨owner,kept,own,rfl,rfl⟩ | ⟨other,mine,position,own,serves,rfl,rfl⟩)
    · refine .inr ⟨tenantBlockKey_ne owner place,?_⟩
      rcases update_eq_some.mp own with ⟨rfl,rfl⟩ | ⟨elsewhere,held⟩
      · exact .inl ⟨rfl,rfl⟩
      · exact .inr ⟨mt tenantBlockKey_injective elsewhere,.inl ⟨owner,kept,held,rfl,rfl⟩⟩
    · -- whatever was stored before has another key, since there was nothing under this one
      have older : ∀ {kept : ServedBlock}, served other.tenantId = some kept → kept.Serves other position →
          other.key ≠ place.key ∧ other.key ≠ tenantBlockKey place.tenantId := by
        intro kept held serves
        refine ⟨fun same => ?_,(tenantBlockKey_ne place.tenantId other).symm⟩
        cases absent.symm.trans (same ▸ keeps.stored_address held serves)
      rcases update_eq_some.mp own with ⟨tenant,rfl⟩ | ⟨_,held⟩
      · rcases (ServedBlock.add_serves tenant).mp serves with earlier | ⟨rfl,rfl⟩
        · obtain ⟨apart,different⟩ := older (tenant ▸ holds) earlier
          exact .inr ⟨apart,.inr ⟨different,.inr ⟨other,block,position,tenant ▸ holds,earlier,rfl,rfl⟩⟩⟩
        · exact .inl ⟨rfl,rfl⟩
      · obtain ⟨apart,different⟩ := older held serves
        exact .inr ⟨apart,.inr ⟨different,.inr ⟨other,mine,position,held,serves,rfl,rfl⟩⟩⟩

theorem Keeps.step (owned : KeyOwned before place) (allocates : Allocates before place after) :
    (∃ position, getServiceAddress before place.tenantId place.service place.role =
          .ok (some (block.address place position)) ∧
        place.allocation before = .ok (block.block place.tenantId,block.address place position) ∧
        after .dummyIps = before .dummyIps) ∨
      (∀ address, ¬HoldsAddress before place address) ∧
        (block.span.size ≤ block.roster.places.length ∧ after = before ∧
            place.allocation before = .error (.serviceSpaceExhausted place.tenantId) ∨
          ∃ fresh room, place.allocation before =
              .ok ((block.add place fresh room).block place.tenantId,block.address place block.roster.places.length) ∧
            Keeps (Function.update served place.tenantId (some (block.add place fresh room))) after) := by
  have stored : getTenantBlock before place.tenantId = .ok (some (block.block place.tenantId)) :=
    keeps.block.mpr ⟨block,holds,rfl⟩
  rcases keeps.under place with absent | ⟨other,mine,position,owner,serves,named,found⟩
  · have missing : getServiceAddress before place.tenantId place.service place.role = .ok none := readEntry_none.mpr absent
    refine .inr ⟨fun address held => (nomatch missing.symm.trans held),?_⟩
    have computed : place.allocation before = if block.span.size ≤ block.roster.places.length
        then .error (.serviceSpaceExhausted place.tenantId)
        else .ok ({ block.block place.tenantId with nextOffset := (block.block place.tenantId).nextOffset + 1 },
          block.address place block.roster.places.length) := by
      rw [ServicePlace.allocation,computeServiceAddressAllocation,missing]
      simp only [bind,Except.bind,stored,block.full_iff]
      rfl
    split at computed
    case isTrue full => exact .inl ⟨full,allocates.refused_same computed,computed⟩
    case isFalse more =>
      have fresh := keeps.unserved holds absent
      have room := Nat.not_le.mp more
      rw [block.add_block place fresh room] at computed
      have written := allocates.committed_contents computed
      refine .inr ⟨fresh,room,computed,?_⟩
      apply keeps.added holds fresh room absent
      exact written
  · obtain rfl := owned other _ (keeps.holds.mpr ⟨mine,position,owner,serves,rfl⟩) named
    cases holds.symm.trans owner
    have computed : other.allocation before = .ok (block.block other.tenantId,block.address other position) := by
      rw [ServicePlace.allocation,computeServiceAddressAllocation,found]
      simp only [bind,Except.bind,stored]
    refine .inl ⟨position,found,computed,(allocates.committed_contents computed).trans ?_⟩
    have same := insert_of_lookup (keeps.stored_block holds)
    rw [ServedBlock.block] at same ⊢
    rw [same]
    exact insert_of_lookup (keeps.stored_address holds serves)

end

def Orderly (disk : Disk) : Prop := ∃ served, Keeps served disk

theorem keeps_congr {served : String → Option ServedBlock} (keeps : Keeps served left)
    (same : right .dummyIps = left .dummyIps) : Keeps served right := by
  intro key bytes
  rw [same]
  exact keeps key bytes

theorem HoldsAddress.congr {address : UInt32} (same : left .dummyIps = right .dummyIps) :
    HoldsAddress left place address ↔ HoldsAddress right place address := by
  rw [HoldsAddress,HoldsAddress,getServiceAddress,getServiceAddress,readEntry,readEntry,same]

theorem Orderly.step (orderly : Orderly before) (owned : KeyOwned before place)
    (allocates : Allocates before place after) :
    Orderly after ∧ ∀ other address, HoldsAddress after other address → HoldsAddress before other address ∨ other = place := by
  obtain ⟨served,keeps⟩ := orderly
  have same : after .dummyIps = before .dummyIps → Orderly after ∧
      ∀ other address, HoldsAddress after other address → HoldsAddress before other address ∨ other = place :=
    fun same => ⟨⟨served,keeps_congr keeps same⟩,fun _ _ held => .inl ((HoldsAddress.congr same).mp held)⟩
  cases holds : served place.tenantId with
  | none =>
    cases allocates with
    | refused => exact same rfl
    | committed computed ok =>
      obtain ⟨stored,found,_⟩ := computeServiceAddressAllocation_ok computed
      obtain ⟨mine,own,_⟩ := keeps.block.mp found
      cases holds.symm.trans own
  | some block =>
    rcases keeps.step holds owned allocates with ⟨_,_,_,kept⟩ | ⟨_,⟨_,rfl,_⟩ | ⟨fresh,room,_,next⟩⟩
    · exact same kept
    · exact same rfl
    · refine ⟨⟨_,next⟩,fun other address held => ?_⟩
      obtain ⟨mine,position,own,serves,rfl⟩ := next.holds.mp held
      rcases update_eq_some.mp own with ⟨tenant,rfl⟩ | ⟨_,kept⟩
      · rcases (ServedBlock.add_serves tenant).mp serves with earlier | ⟨_,asked⟩
        · exact .inl (keeps.holds.mpr ⟨block,position,tenant ▸ holds,earlier,rfl⟩)
        · exact .inr asked
      · exact .inl (keeps.holds.mpr ⟨mine,position,kept,serves,rfl⟩)

theorem Orderly.opened {before after} (orderly : Orderly before) {tenantId}
    (without : getTenantBlock before tenantId = .ok none) (span : BlockSpan)
    (written : after .dummyIps = (before .dummyIps).insert (tenantBlockKey tenantId)
      (toAllocvec (⟨tenantId,span.base,span.prefixLen,0⟩ : TenantBlock))) : Orderly after := by
  obtain ⟨served,keeps⟩ := orderly
  have unserved : ∀ {other : String} {block : ServedBlock}, served other = some block → other ≠ tenantId := by
    rintro other block holds rfl
    cases without.symm.trans (keeps.block.mpr ⟨block,holds,rfl⟩)
  refine ⟨Function.update served tenantId (some ⟨span,Roster.empty⟩),fun key bytes => ?_⟩
  rw [written,insert_eq_some,keeps]
  constructor
  · rintro (⟨rfl,rfl⟩ | ⟨_,⟨owner,block,holds,rfl,rfl⟩ | ⟨place,block,position,holds,serves,rfl,rfl⟩⟩)
    · exact .inl ⟨tenantId,_,Function.update_self _ _ _,rfl,rfl⟩
    · exact .inl ⟨owner,block,update_eq_some.mpr (.inr ⟨unserved holds,holds⟩),rfl,rfl⟩
    · exact .inr ⟨place,block,position,update_eq_some.mpr (.inr ⟨unserved holds,holds⟩),serves,rfl,rfl⟩
  · rintro (⟨owner,block,holds,rfl,rfl⟩ | ⟨place,block,position,holds,serves,rfl,rfl⟩)
    · rcases update_eq_some.mp holds with ⟨rfl,rfl⟩ | ⟨elsewhere,held⟩
      · exact .inl ⟨rfl,rfl⟩
      · exact .inr ⟨mt tenantBlockKey_injective elsewhere,.inl ⟨owner,block,held,rfl,rfl⟩⟩
    · rcases update_eq_some.mp holds with ⟨_,rfl⟩ | ⟨_,held⟩
      · cases serves
      · exact .inr ⟨(tenantBlockKey_ne tenantId place).symm,.inr ⟨place,block,position,held,serves,rfl,rfl⟩⟩

/-- What is asked of an allocation for a pair of a tenant with a block. -/
structure ServedRightly (before : Disk) (place : ServicePlace) (after : Disk) (block : TenantBlock) : Prop where
  /-- A pair that has an address gets it again, and nothing is consumed. -/
  again : ∀ address, HoldsAddress before place address → place.allocation before =
        .ok (block,⟨place.tenantId,place.service,place.role,address⟩) ∧
      after .dummyIps = before .dummyIps
  /-- A new pair gets one as long as there is one of the block that no pair of the tenant has. -/
  succeeds : (∀ address, ¬HoldsAddress before place address) → ((∃ result, place.allocation before = .ok result) ↔
      ∃ address, block.Contains address ∧
        ∀ other : ServicePlace, other.tenantId = place.tenantId → ¬HoldsAddress before other address)
  /-- It is its own, computed exactly, in the block, and one that neither the tenant has given away before nor a tenant
  whose block shares no address with this one. -/
  granted : (∀ address, ¬HoldsAddress before place address) → ∀ next result,
    place.allocation before = .ok (next,result) →
    HoldsAddress after place result.address ∧ block.Contains result.address ∧
      result.address.toNat = block.base.toNat + block.nextOffset.toNat ∧
      next.nextOffset.toNat = block.nextOffset.toNat + 1 ∧
      ∀ other, HoldsAddress before other result.address → other.tenantId ≠ place.tenantId ∧
        ∀ theirs, getTenantBlock before other.tenantId = .ok (some theirs) →
          ∃ shared, block.Contains shared ∧ theirs.Contains shared
  /-- Addresses are not taken back. -/
  kept : ∀ other address, HoldsAddress before other address → HoldsAddress after other address
  once : ∀ (left right : ServicePlace) (address : UInt32), left.tenantId = right.tenantId →
    HoldsAddress after left address → HoldsAddress after right address → left = right

section
variable {served : String → Option ServedBlock} {before after : Disk}

theorem Keeps.inside (keeps : Keeps served before) {place} {address : UInt32}
    (held : HoldsAddress before place address) :
    ∃ block position, served place.tenantId = some block ∧ block.Serves place position ∧
      position < block.roster.places.length ∧ address.toNat = block.span.base.toNat + position ∧
      (block.block place.tenantId).Contains address := by
  obtain ⟨block,position,own,serves,rfl⟩ := keeps.holds.mp held
  have below := block.roster.position_lt serves
  have inside := Nat.lt_of_lt_of_le below block.roster.bounded
  have exact := block.address_toNat place inside
  exact ⟨block,position,own,serves,below,exact,(block.contains_iff _ _).mpr ⟨position,inside,exact⟩⟩

theorem Keeps.once (keeps : Keeps served before) {left right : ServicePlace} {address : UInt32}
    (tenant : left.tenantId = right.tenantId) (one : HoldsAddress before left address)
    (other : HoldsAddress before right address) : left = right := by
  obtain ⟨block,position,own,serves,_,first,_⟩ := keeps.inside one
  obtain ⟨mine,place,holds,served,_,second,_⟩ := keeps.inside other
  rw [tenant,holds,Option.some.injEq] at own
  subst own
  obtain rfl : position = place := by omega
  have pairs := Option.some.inj (serves.symm.trans served)
  cases left
  cases right
  simp_all

variable (keeps : Keeps served before) {place : ServicePlace} {block : ServedBlock}
  (holds : served place.tenantId = some block)
include keeps holds

theorem Keeps.room_iff : (∃ address, (block.block place.tenantId).Contains address ∧
      ∀ other : ServicePlace, other.tenantId = place.tenantId → ¬HoldsAddress before other address) ↔
    block.roster.places.length < block.span.size := by
  constructor
  · rintro ⟨address,inside,unheld⟩
    by_contra full
    obtain ⟨position,bounded,same⟩ := (block.contains_iff _ _).mp inside
    obtain ⟨⟨service,role⟩,found⟩ := block.roster.full (Nat.not_lt.mp full) bounded
    refine unheld ⟨place.tenantId,service,role⟩ rfl (keeps.holds.mpr ⟨block,position,holds,found,?_⟩)
    rw [← UInt32.toNat_inj,block.address_toNat _ bounded]
    exact same
  · intro room
    refine ⟨(block.address place block.roster.places.length).address,(block.contains_iff _ _).mpr
      ⟨_,room,block.address_toNat place room⟩,fun other tenant held => ?_⟩
    obtain ⟨mine,position,own,_,below,same,_⟩ := keeps.inside held
    rw [tenant,holds,Option.some.injEq] at own
    subst own
    rw [block.address_toNat place room] at same
    omega

theorem Keeps.granted {fresh room}
    (next : Keeps (Function.update served place.tenantId (some (block.add place fresh room))) after) :
    HoldsAddress after place (block.address place block.roster.places.length).address ∧
      (∀ other address, HoldsAddress before other address → HoldsAddress after other address) ∧
      ∀ other, HoldsAddress before other (block.address place block.roster.places.length).address →
        other.tenantId ≠ place.tenantId ∧ ∀ theirs, getTenantBlock before other.tenantId = .ok (some theirs) →
          ∃ shared, (block.block place.tenantId).Contains shared ∧ theirs.Contains shared := by
  have exact := block.address_toNat place room
  refine ⟨next.holds.mpr ⟨_,_,Function.update_self _ _ _,(ServedBlock.add_serves rfl).mpr (.inr ⟨rfl,rfl⟩),rfl⟩,?_,?_⟩
  · intro other address held
    obtain ⟨mine,position,own,serves,rfl⟩ := keeps.holds.mp held
    by_cases tenant : other.tenantId = place.tenantId
    · rw [tenant,holds,Option.some.injEq] at own
      subst own
      exact next.holds.mpr ⟨_,position,update_eq_some.mpr (.inl ⟨tenant,rfl⟩),
        (ServedBlock.add_serves tenant).mpr (.inl serves),rfl⟩
    · exact next.holds.mpr ⟨mine,position,update_eq_some.mpr (.inr ⟨tenant,own⟩),serves,rfl⟩
  · intro other held
    obtain ⟨mine,position,own,_,below,same,inside⟩ := keeps.inside held
    constructor
    · intro tenant
      rw [tenant,holds,Option.some.injEq] at own
      subst own
      omega
    · intro theirs found
      obtain ⟨again,owns,rfl⟩ := keeps.block.mp found
      cases own.symm.trans owns
      exact ⟨_,(block.contains_iff _ _).mpr ⟨_,room,exact⟩,inside⟩

theorem Keeps.servedRightly (owned : KeyOwned before place) (allocates : Allocates before place after) :
    ServedRightly before place after (block.block place.tenantId) := by
  rcases keeps.step holds owned allocates with ⟨position,found,computed,same⟩ |
    ⟨unheld,⟨full,rfl,failed⟩ | ⟨fresh,room,computed,next⟩⟩
  · have exact : ∀ address, HoldsAddress before place address → _ = block.address place position :=
      fun address held => Option.some.inj (Except.ok.inj (held.symm.trans found))
    have held : HoldsAddress before place (block.address place position).address := found
    refine ⟨fun address mine => ⟨exact address mine ▸ computed,same⟩,fun unheld => (unheld _ held).elim,
      fun unheld => (unheld _ held).elim,fun _ _ => (HoldsAddress.congr same).mpr,
      fun _ _ _ => (keeps_congr keeps same).once⟩
  · refine ⟨fun address held => (unheld address held).elim,fun _ => ?_,?_,fun _ _ => id,fun _ _ _ => keeps.once⟩
    · rw [keeps.room_iff holds,failed]
      exact iff_of_false (fun ⟨_,ok⟩ => nomatch ok) (Nat.not_lt.mpr full)
    · intro _ _ _ ok
      cases failed.symm.trans ok
  · obtain ⟨given,kept,apart⟩ := keeps.granted holds next
    refine ⟨fun address held => (unheld address held).elim,fun _ => ?_,?_,kept,fun _ _ _ => next.once⟩
    · rw [keeps.room_iff holds,computed]
      exact iff_of_true ⟨_,rfl⟩ room
    · intro _ advanced result ok
      obtain ⟨rfl,rfl⟩ := Prod.mk.inj (Except.ok.inj (computed.symm.trans ok))
      have exact := block.address_toNat place room
      refine ⟨given,(block.contains_iff _ _).mpr ⟨_,room,exact⟩,?_,?_,apart⟩
      · rw [exact,block.nextOffset_toNat]
        rfl
      · rw [ServedBlock.nextOffset_toNat,block.nextOffset_toNat]
        exact List.length_append

end

def AskedIn (first : Disk) (trace : List (Transition Disk ServicePlace)) (place : ServicePlace) : Prop :=
  (∃ address, HoldsAddress first place address) ∨ ∃ transition ∈ trace, transition.label = place

/-- Where no two pairs share a key, every allocation of a sequence does what is asked of it. -/
theorem service_addresses_rightly {first last : Disk} {trace : List (Transition Disk ServicePlace)}
    (orderly : Orderly first) (run : Run Allocates first trace last)
    (apart : ∀ left right, AskedIn first trace left → AskedIn first trace right → left.key = right.key → left = right) :
    ∀ transition ∈ trace, ∀ block, getTenantBlock transition.before transition.label.tenantId = .ok (some block) →
      ServedRightly transition.before transition.label transition.after block := by
  have owned : ∀ {disk : Disk} {place : ServicePlace}, (∃ transition ∈ trace, transition.label = place) →
      (∀ other address, HoldsAddress disk other address → AskedIn first trace other) → KeyOwned disk place :=
    fun asks asked other address held => apart _ _ (asked other address held) (.inr asks)
  have kept : ∀ before place after, Allocates before place after → (∃ transition ∈ trace, transition.label = place) →
      (Orderly before ∧ ∀ other address, HoldsAddress before other address → AskedIn first trace other) →
      Orderly after ∧ ∀ other address, HoldsAddress after other address → AskedIn first trace other := by
    rintro before place after step asks ⟨orderly,asked⟩
    obtain ⟨next,holders⟩ := orderly.step (owned asks asked) step
    refine ⟨next,fun other address held => ?_⟩
    rcases holders other address held with earlier | rfl
    · exact asked other address earlier
    · exact .inr asks
  intro transition member block found
  have start := (run.invariant (fun disk => Orderly disk ∧ ∀ other address, HoldsAddress disk other address →
      AskedIn first trace other) (fun transition => transition ∈ trace)
    (fun before place after step member => kept before place after step ⟨_,member,rfl⟩)
    ⟨orderly,fun other address held => .inl ⟨address,held⟩⟩ fun _ => id).1 transition member
  obtain ⟨⟨served,keeps⟩,asked⟩ := start.1
  obtain ⟨mine,holds,rfl⟩ := keeps.block.mp found
  exact keeps.servedRightly holds (owned ⟨transition,member,rfl⟩ asked) (run.step_of_mem transition member)

end

open Reference

def smallSpan : BlockSpan := ⟨0xF0000000,31,by decide,by decide,by decide⟩

def smallStore : Disk := commit Disk.empty [put .dummyIps (tenantBlockKey "acme") (⟨"acme",0xF0000000,31,0⟩ : TenantBlock)]

theorem smallStore_orderly : Orderly smallStore := by
  have empty : Orderly Disk.empty := ⟨fun _ => none,by simp [Keeps,Disk.empty]⟩
  exact @Orderly.opened _ _ _ _ empty "acme" rfl smallSpan rfl

def handOut (disk : Disk) (place : ServicePlace) (offset : UInt32) : Disk :=
  commit disk [put .dummyIps (tenantBlockKey "acme") (⟨"acme",0xF0000000,31,offset + 1⟩ : TenantBlock),
    put .dummyIps place.key (⟨place.tenantId,place.service,place.role,0xF0000000 + offset⟩ : ServiceAddress)]

theorem allocates_handOut (disk : Disk) (place other : ServicePlace) (offset : UInt32)
    (computed : computeServiceAddressAllocation disk place.tenantId place.service place.role =
      .ok (⟨"acme",0xF0000000,31,offset + 1⟩,⟨other.tenantId,other.service,other.role,0xF0000000 + offset⟩)) :
    Allocates disk place (handOut disk other offset) := .committed computed rfl

def shopWeb : ServicePlace := ⟨"acme","shop","web"⟩
def shopDb : ServicePlace := ⟨"acme","shop","db"⟩
def shopJobs : ServicePlace := ⟨"acme","shop","jobs"⟩

def webServed : Disk := handOut smallStore shopWeb 0
def webDbServed : Disk := handOut webServed shopDb 1

def smallTrace : List (Transition Disk ServicePlace) :=
  [⟨smallStore,shopWeb,webServed⟩,⟨webServed,shopDb,webDbServed⟩,⟨webDbServed,shopJobs,webDbServed⟩]

theorem small_block_handed_out : Run Allocates smallStore smallTrace webDbServed ∧ ∀ transition ∈ smallTrace, ∃ block,
      ServedRightly transition.before transition.label transition.after block := by
  have run : Run Allocates smallStore smallTrace webDbServed := by
    have exhausted : computeServiceAddressAllocation webDbServed shopJobs.tenantId shopJobs.service shopJobs.role =
        .error (.serviceSpaceExhausted "acme") := by decide +kernel
    apply Run.cons (allocates_handOut smallStore shopWeb shopWeb 0 (by decide +kernel))
    apply Run.cons (allocates_handOut webServed shopDb shopDb 1 (by decide +kernel))
    apply Run.cons (Allocates.refused exhausted)
    exact .nil _
  have unheld : ∀ place address, ¬HoldsAddress smallStore place address := by
    intro place address held
    obtain ⟨bytes,stored,_⟩ := readEntry_some.mp held
    rcases insert_eq_some.mp stored with ⟨named,_⟩ | ⟨_,nothing⟩
    · exact tenantBlockKey_ne "acme" place named.symm
    · simp [Disk.empty] at nothing
  have plain : ∀ place, AskedIn smallStore smallTrace place → place.tenantId = "acme" ∧ place.service = "shop" := by
    rintro place (⟨address,held⟩ | ⟨transition,member,rfl⟩)
    · exact absurd held (unheld place address)
    · simp only [smallTrace,mem_cons,not_mem_nil,or_false] at member
      rcases member with rfl | rfl | rfl <;> exact ⟨rfl,rfl⟩
  have rightly := service_addresses_rightly smallStore_orderly run (by
    intro left right first second
    obtain ⟨tenant,service⟩ := plain left first
    obtain ⟨owner,other⟩ := plain right second
    exact serviceKey_injective (by rw [tenant]; decide) (by rw [service]; decide) (by rw [owner]; decide)
      (by rw [other]; decide))
  refine ⟨run,?_⟩
  simp only [smallTrace,mem_cons,not_mem_nil,or_false,forall_eq_or_imp,forall_eq] at rightly ⊢
  obtain ⟨web,db,jobs⟩ := rightly
  exact ⟨⟨⟨"acme",0xF0000000,31,0⟩,web _ (by decide +kernel)⟩,⟨⟨"acme",0xF0000000,31,1⟩,db _ (by decide +kernel)⟩,
    ⟨⟨"acme",0xF0000000,31,2⟩,jobs _ (by decide +kernel)⟩⟩

def mailIn : ServicePlace := ⟨"acme","mail:in","web"⟩
def mailInWeb : ServicePlace := ⟨"acme","mail","in:web"⟩
def mailServed : Disk := handOut smallStore mailIn 0

/-- A new pair is given the address of another one, and has none afterwards. -/
theorem address_of_another_pair : ∃ last, Run Allocates smallStore
      [⟨smallStore,mailIn,mailServed⟩,⟨mailServed,mailInWeb,last⟩] last ∧
    getTenantBlock mailServed "acme" = .ok (some ⟨"acme",0xF0000000,31,1⟩) ∧
    HoldsAddress mailServed mailIn 0xF0000000 ∧ (∀ address, ¬HoldsAddress mailServed mailInWeb address) ∧
    computeServiceAddressAllocation mailServed "acme" "mail" "in:web" =
      .ok (⟨"acme",0xF0000000,31,1⟩,⟨"acme","mail:in","web",0xF0000000⟩) ∧
    (∀ address, ¬HoldsAddress last mailInWeb address) ∧ ∀ block, ¬ServedRightly mailServed mailInWeb last block := by
  have computed : computeServiceAddressAllocation mailServed "acme" "mail" "in:web" =
      .ok (⟨"acme",0xF0000000,31,1⟩,⟨"acme","mail:in","web",0xF0000000⟩) := by decide +kernel
  have found : ∀ disk, getServiceAddress disk "acme" "mail" "in:web" = .ok (some ⟨"acme","mail:in","web",0xF0000000⟩) →
      ∀ address, ¬HoldsAddress disk mailInWeb address := by
    intro disk read address held
    have same : "mail" = "mail:in" :=
      congrArg ServiceAddress.service (Option.some.inj (Except.ok.inj (held.symm.trans read)))
    exact absurd same (by decide)
  have unheld := found mailServed (by decide +kernel)
  have never := found (handOut mailServed mailIn 0) (by decide +kernel)
  have held : getServiceAddress mailServed "acme" "mail:in" "web" = .ok (some ⟨"acme","mail:in","web",0xF0000000⟩) := by
    decide +kernel
  refine ⟨handOut mailServed mailIn 0,?_,by decide +kernel,held,unheld,computed,never,?_⟩
  · apply Run.cons (allocates_handOut smallStore mailIn mailIn 0 (by decide +kernel))
    apply Run.cons (allocates_handOut mailServed mailInWeb mailIn 0 (by decide +kernel))
    exact .nil _
  · intro block rightly
    exact never _ (rightly.granted unheld _ _ computed).1

end FleetosControl
