import FleetosControl.Lib.Wire

/-! What the control plane takes from `fleetos-core` and postcard. They are parameters, and a result
that needs one of their laws uses it through these classes. -/
namespace FleetosControl
open Wire Std
export List (mem_cons mem_cons_self mem_cons_of_mem mem_singleton mem_singleton_self mem_append mem_append_left
  mem_append_right mem_map mem_filter mem_filterMap mem_flatMap not_mem_nil forall_mem_cons)
export Option (map_eq_some_iff)

structure ResourceRequirements where
  vcpus : UInt32
  memoryMb : UInt32
  diskGb : UInt32
  deriving DecidableEq

structure Toleration where
  key : String
  operator : String
  value : String
  effect : String
  tolerationSeconds : Int64 := 0
  deriving DecidableEq

structure InitContainer where
  name : String
  image : String
  unread : Bytes := []
  deriving DecidableEq

/-- Defaults are protobuf's; `unread` stands for the fields that no modelled function reads. -/
structure PodSpec where
  tenantId : String := ""
  workloadId : String := ""
  role : String := ""
  image : String := ""
  ordinal : Option UInt32 := none
  podId : Option String := none
  resources : Option ResourceRequirements := none
  env : ExtTreeMap String String compare := ∅
  labels : ExtTreeMap String String compare := ∅
  priority : Int32 := 0
  tolerations : List Toleration := []
  initContainers : List InitContainer := []
  unread : Bytes := []
  deriving DecidableEq

structure AutoscalingPolicy where
  enabled : Bool := false
  targetCpuMillicores : UInt32 := 0
  targetMemoryBytes : UInt64 := 0
  targetNetRxBytesPerSec : UInt64 := 0
  targetNetTxBytesPerSec : UInt64 := 0
  minReplicas : UInt32 := 0
  maxReplicas : UInt32 := 0
  stabilizationWindowSeconds : UInt32 := 0
  deriving DecidableEq

structure VerticalAutoscalingPolicy where
  enabled : Bool := false
  mode : Int32 := 0
  targetCpuUtilizationPercent : UInt32 := 0
  targetMemoryUtilizationPercent : UInt32 := 0
  minVcpus : UInt32 := 0
  maxVcpus : UInt32 := 0
  minMemoryBytes : UInt64 := 0
  maxMemoryBytes : UInt64 := 0
  deadbandPercent : UInt32 := 0
  stabilizationWindowSeconds : UInt32 := 0
  deriving DecidableEq

inductive BudgetValue where
  | count (pods : UInt32)
  | percent (share : UInt32)
  deriving DecidableEq

inductive BudgetPolicy where
  | minAvailable (value : Option BudgetValue)
  | maxUnavailable (value : Option BudgetValue)
  deriving DecidableEq

structure DisruptionBudget where
  policy : Option BudgetPolicy := none
  deriving DecidableEq

structure WorkloadSpec where
  tenantId : String := ""
  workloadId : String := ""
  image : String := ""
  replicas : ExtTreeMap String UInt32 compare := ∅
  podSpec : Option PodSpec := none
  placement : Int32 := 0
  -- the encoded sub-message, which nothing here decodes
  updateStrategy : Option Bytes := none
  autoscaling : Option AutoscalingPolicy := none
  verticalAutoscaling : Option VerticalAutoscalingPolicy := none
  budgets : ExtTreeMap String DisruptionBudget compare := ∅
  unread : Bytes := []
  deriving DecidableEq

inductive IdKind where
  | sa | node | router | gateway | control | ctrl | operator
  deriving DecidableEq

class FleetosCore where
  SpiffeId : Type
  decEq : DecidableEq SpiffeId
  kind : SpiffeId → IdKind
  parse : String → Except String SpiffeId
  -- `Display`, also the text under which an identity is serialised
  display : SpiffeId → String
  parse_display : ∀ id, parse (display id) = .ok id
  decodeWorkloadSpec : Bytes → Except String WorkloadSpec

export FleetosCore (SpiffeId parse display parse_display decodeWorkloadSpec)

attribute [reducible,instance] FleetosCore.decEq
attribute [simp] FleetosCore.parse_display

class WorkloadMessages [FleetosCore] where
  encodeWorkloadSpec : WorkloadSpec → Bytes
  decode_encode : ∀ spec, decodeWorkloadSpec (encodeWorkloadSpec spec) = .ok spec

export WorkloadMessages (encodeWorkloadSpec)

attribute [simp] WorkloadMessages.decode_encode

/-- postcard at one type. No record here has a sequence of unknown length, so encoding is total. -/
class Postcard (α : Type) where
  toAllocvec : α → Bytes
  fromBytes : Bytes → Except String α
  fromBytes_toAllocvec : ∀ value, fromBytes (toAllocvec value) = .ok value

export Postcard (toAllocvec fromBytes fromBytes_toAllocvec)

attribute [simp] Postcard.fromBytes_toAllocvec

theorem fromBytes_iff [Postcard α] {value read : α} : fromBytes (toAllocvec value) = .ok read ↔ value = read := by
  rw [fromBytes_toAllocvec,Except.ok.injEq]

def asBytes (text : String) : Bytes := text.toByteArray.data.toList

theorem asBytes_injective (same : asBytes left = asBytes right) : left = right := by
  apply String.toByteArray_inj.mp
  apply ByteArray.ext
  exact Array.toList_inj.mp same

@[simp] theorem asBytes_inj : asBytes left = asBytes right ↔ left = right := ⟨asBytes_injective,congrArg asBytes⟩

-- `String::from_utf8`
def fromUtf8 (bytes : Bytes) : Option String := String.fromUTF8? ⟨bytes.toArray⟩

def ValidUtf8 (bytes : Bytes) : Prop := ByteArray.IsValidUTF8 ⟨bytes.toArray⟩

instance (bytes : Bytes) : Decidable (ValidUtf8 bytes) :=
  decidable_of_iff (ByteArray.validateUTF8 ⟨bytes.toArray⟩ = true) ByteArray.validateUTF8_eq_true_iff

theorem exists_asBytes_iff (bytes : Bytes) : (∃ text, asBytes text = bytes) ↔ ValidUtf8 bytes := by
  constructor
  · rintro ⟨text,rfl⟩
    have valid := text.isValidUTF8
    simpa only [ValidUtf8,asBytes,Array.toArray_toList] using valid
  · intro valid
    exact ⟨⟨⟨bytes.toArray⟩,valid⟩,by simp [asBytes]⟩

@[simp] theorem asBytes_append (left right : String) : asBytes (left ++ right) = asBytes left ++ asBytes right := by
  simp [asBytes,String.toByteArray_append]

end FleetosControl
