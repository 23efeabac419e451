import FleetosControl.Reference

/-! The admin requests that store workloads: submission with its admission
checks and the tenant's quota, scaling, deletion, and cron workloads. -/
namespace FleetosControl
open Wire

section
variable [FleetosCore] [Formats] {spec : WorkloadSpec}

def storedSpec (bytes : Bytes) : Option WorkloadSpec :=
  (fromBytes (α := WorkloadSpecRecord) bytes).toOption.bind fun record =>
    (decodeWorkloadSpec record.specBytes).toOption

def listWorkloads (storage : Disk) : List WorkloadSpecRecord := scanRecords WorkloadSpecRecord storage .workloads

def listCronWorkloads (storage : Disk) : List CronWorkloadRecord :=
  ((storage .workloads).toList.filter fun entry => (asBytes "cron:").isPrefixOf entry.1).filterMap fun entry =>
    (fromBytes entry.2).toOption

def lookupWorkloadSpec (storage : Disk) (tenantId workloadId : String) : Option WorkloadSpec :=
  (storage .workloads)[workloadKey tenantId workloadId]?.bind storedSpec

def decodedWorkloads (storage : Disk) : List WorkloadSpec :=
  (listWorkloads storage).filterMap fun record => (decodeWorkloadSpec record.specBytes).toOption

theorem storedSpec_some : storedSpec bytes = some spec ↔ ∃ record : WorkloadSpecRecord, fromBytes bytes = .ok record ∧
      decodeWorkloadSpec record.specBytes = .ok spec := by
  simp only [storedSpec,Option.bind_eq_some_iff,toOption_eq_some]

theorem mem_decodedWorkloads : spec ∈ decodedWorkloads storage ↔
      ∃ key bytes : Bytes, (storage .workloads)[key]? = some bytes ∧ storedSpec bytes = some spec := by
  simp only [decodedWorkloads,listWorkloads,mem_filterMap,mem_scanRecords,storedSpec_some,toOption_eq_some]
  constructor
  · rintro ⟨record,⟨key,bytes,found,decoded⟩,read⟩
    exact ⟨key,bytes,found,record,decoded,read⟩
  · rintro ⟨key,bytes,found,record,decoded,read⟩
    exact ⟨record,⟨key,bytes,found,decoded⟩,read⟩

end

structure CronSchedule where
  expression : String
  suspend : Bool := false
  deriving DecidableEq

structure CronWorkload where
  tenantId : String
  cronWorkloadId : String
  schedule : Option CronSchedule
  workloadTemplate : Option WorkloadSpec
  deriving DecidableEq

class CronMessages where
  validateExpression : String → Except String Unit
  encodeCronWorkload : CronWorkload → Bytes

structure ScaleWorkloadRequest where
  tenantId : String
  workloadId : String
  replicas : Std.ExtTreeMap String UInt32 compare

structure DeleteWorkloadRequest where
  tenantId : String
  workloadId : String

def maxReplicasPerRole : UInt32 := 1024

def maxRolesPerWorkload : Nat := 16

def maxSpecBytes : Nat := 1024 * 1024

-- A map is checked in the order of its keys; the crate's order is arbitrary.
def validateReplicas (replicas : Std.ExtTreeMap String UInt32 compare) : Except Status Unit :=
  replicas.toList.forM fun entry => do
    validateIdentifier entry.1 "role"
    if entry.2 = 0 || maxReplicasPerRole < entry.2 then
      invalidArgument ("replica count for role '" ++ entry.1 ++ "' must be 1-" ++ toString maxReplicasPerRole)

def validateInitContainers (seen : List String) (index : Nat) : List InitContainer → Except Status Unit
  | [] => .ok ()
  | container::rest =>
    if container.name.isEmpty then invalidArgument ("init_containers[" ++ toString index ++ "].name cannot be empty")
    else if seen.contains container.name then
      invalidArgument ("duplicate init container name '" ++ container.name ++ "'")
    else if container.image.isEmpty then
      invalidArgument ("init container '" ++ container.name ++ "' has an empty image")
    else validateInitContainers (container.name::seen) (index + 1) rest

def validateAutoscaling (spec : WorkloadSpec) : Except Status Unit :=
  match spec.verticalAutoscaling with
  | none => .ok ()
  | some vpa =>
    if !vpa.enabled then .ok ()
    else
      let cpuActive := 0 < vpa.targetCpuUtilizationPercent
      let memActive := 0 < vpa.targetMemoryUtilizationPercent
      let hpa := spec.autoscaling.filter (·.enabled)
      if ¬cpuActive ∧ ¬memActive then invalidArgument "vertical_autoscaling enabled but no active targets"
      else if vpa.maxVcpus < vpa.minVcpus then invalidArgument "vertical_autoscaling min_vcpus > max_vcpus"
      else if vpa.maxMemoryBytes < vpa.minMemoryBytes then
        invalidArgument "vertical_autoscaling min_memory > max_memory"
      else if cpuActive ∧ hpa.any (fun policy => 0 < policy.targetCpuMillicores) then
        invalidArgument "vertical_autoscaling CPU target conflicts with HPA CPU target"
      else if memActive ∧ hpa.any (fun policy => 0 < policy.targetMemoryBytes) then
        invalidArgument "vertical_autoscaling memory target conflicts with HPA memory target"
      else .ok ()

namespace WorkloadSpec

def cpuPerPod (spec : WorkloadSpec) : UInt64 :=
  ((spec.podSpec.bind (·.resources)).map fun r => r.vcpus.toUInt64 * 1000).getD 0

def memPerPod (spec : WorkloadSpec) : UInt64 :=
  ((spec.podSpec.bind (·.resources)).map fun r => r.memoryMb.toUInt64 * 1024 * 1024).getD 0

def totalReplicas (spec : WorkloadSpec) : UInt64 :=
  spec.replicas.toList.foldl (fun sum entry => sum + entry.2.toUInt64) 0

end WorkloadSpec

section
variable [FleetosCore] [Formats]

def computeTenantUsage (storage : Disk) (tenantId : String) : UInt64 × UInt64 × UInt32 :=
  let own := (listWorkloads storage).filter (·.tenantId = tenantId)
  let specs := own.filterMap fun record => (decodeWorkloadSpec record.specBytes).toOption
  (specs.foldl (fun sum spec => sum + spec.cpuPerPod * spec.totalReplicas) 0,
    specs.foldl (fun sum spec => sum + spec.memPerPod * spec.totalReplicas) 0,.ofNat own.length)

def getTenantQuota (storage : Disk) (tenantId : String) : Except String (Option TenantQuotaRecord) :=
  match (storage .tenantQuotas)[asBytes tenantId]? with
  | some bytes => ((fromBytes bytes).mapError fun e => "serialization error: " ++ e).map some
  | none => .ok none

def resourceExhausted {α : Type} (message : String) : Except Status α := .error ⟨.resourceExhausted,message⟩

namespace AdminServer

def checkTenantQuota (server : AdminServer) (tenantId : String) (spec : WorkloadSpec) : Except Status Unit := do
  match ← (getTenantQuota server.storage tenantId).mapError fun e => ⟨.internal,"quota lookup failed: " ++ e⟩ with
  | none => pure ()
  | some quota =>
    let (currentCpu,currentMemory,currentWorkloads) := computeTenantUsage server.storage tenantId
    let newCpu := currentCpu + spec.cpuPerPod * spec.totalReplicas
    let newMemory := currentMemory + spec.memPerPod * spec.totalReplicas
    let newWorkloads := currentWorkloads + 1
    if quota.maxWorkloads < newWorkloads then
      resourceExhausted ("tenant '" ++ tenantId ++ "' workload quota exceeded: " ++ toString newWorkloads ++ " of " ++
        toString quota.maxWorkloads ++ " allowed")
    else if quota.maxCpuMillicores < newCpu then
      resourceExhausted ("tenant '" ++ tenantId ++ "' CPU quota exceeded: " ++ toString newCpu ++ " of " ++
        toString quota.maxCpuMillicores ++ " millicores allowed")
    else if quota.maxMemoryBytes < newMemory then
      resourceExhausted ("tenant '" ++ tenantId ++ "' memory quota exceeded: " ++ toString newMemory ++ " of " ++
        toString quota.maxMemoryBytes ++ " bytes allowed")
    else pure ()

def deleteWorkload (server : AdminServer) (peer : Peer) (requestId : String) (req : DeleteWorkloadRequest) :
    Except Status AuditedCommand := do
  verifyCaller peer
  server.requireTenantWrite peer req.tenantId
  pure ⟨.deleteWorkload req.tenantId req.workloadId,some (server.buildAuditContext peer requestId req.workloadId)⟩

def submitCronWorkload [CronMessages] (server : AdminServer) (peer : Peer) (requestId : String) (cron : CronWorkload) :
    Except Status AuditedCommand := do
  verifyCaller peer
  server.requireTenantWrite peer cron.tenantId
  validateIdentifier cron.tenantId "tenant_id"
  validateIdentifier cron.cronWorkloadId "cron_workload_id"
  match cron.schedule with
  | none => invalidArgument "schedule cannot be empty"
  | some schedule =>
    (CronMessages.validateExpression schedule.expression).mapError fun e =>
      ⟨.invalidArgument,"invalid cron expression: " ++ e⟩
    pure ⟨.submitCronWorkload
        ⟨cron.tenantId,cron.cronWorkloadId,schedule.expression,CronMessages.encodeCronWorkload cron⟩
        ⟨cron.tenantId,cron.cronWorkloadId,server.now⟩,
      some (server.buildAuditContext peer requestId cron.cronWorkloadId)⟩

variable {server : AdminServer} {peer : Peer} {requestId : String} {audited : AuditedCommand}

theorem deleteWorkload_proposes (ok : server.deleteWorkload peer requestId req = .ok audited) :
    server.requireTenantWrite peer req.tenantId = .ok () ∧ audited.cmd = .deleteWorkload req.tenantId req.workloadId := by
  obtain ⟨_,_,ok⟩ := bind_ok ok
  obtain ⟨_,write,ok⟩ := bind_ok ok
  cases ok
  exact ⟨write,rfl⟩

theorem submitCronWorkload_proposes [CronMessages]
    (ok : server.submitCronWorkload peer requestId cron = .ok audited) :
    server.requireTenantWrite peer cron.tenantId = .ok () ∧ validateIdentifier cron.tenantId "tenant_id" = .ok () ∧
      ∃ record checkpoint, audited.cmd = .submitCronWorkload record checkpoint ∧ record.tenantId = cron.tenantId := by
  obtain ⟨_,_,ok⟩ := bind_ok ok
  obtain ⟨_,write,ok⟩ := bind_ok ok
  obtain ⟨_,tenant,ok⟩ := bind_ok ok
  obtain ⟨_,_,ok⟩ := bind_ok ok
  split at ok
  · cases ok
  · obtain ⟨_,_,ok⟩ := bind_ok ok
    cases ok
    exact ⟨write,tenant,_,_,rfl,rfl⟩

variable [WorkloadMessages]

def submitWorkloadSpec (server : AdminServer) (peer : Peer) (requestId : String) (spec : WorkloadSpec) :
    Except Status AuditedCommand := do
  verifyCaller peer
  server.requireTenantWrite peer spec.tenantId
  validateIdentifier spec.tenantId "tenant_id"
  validateIdentifier spec.workloadId "workload_id"
  if spec.image.isEmpty then invalidArgument "image cannot be empty" else
  if spec.replicas.isEmpty then invalidArgument "replicas map cannot be empty" else
  if maxRolesPerWorkload < spec.replicas.size then
    invalidArgument ("too many roles: max " ++ toString maxRolesPerWorkload ++ " per workload")
  else
    validateReplicas spec.replicas
    if maxSpecBytes < (encodeWorkloadSpec spec).length then invalidArgument "workload spec exceeds 1 MiB" else
      validateInitContainers [] 0 ((spec.podSpec.map (·.initContainers)).getD [])
      validateAutoscaling spec
      server.checkTenantQuota spec.tenantId spec
      pure ⟨.submitWorkloadSpec ⟨spec.tenantId,spec.workloadId,encodeWorkloadSpec spec,[]⟩,
        some (server.buildAuditContext peer requestId spec.workloadId)⟩

/-- The record goes back under the names it carries itself. -/
def scaleWorkload (server : AdminServer) (peer : Peer) (requestId : String) (req : ScaleWorkloadRequest) :
    Except Status AuditedCommand := do
  verifyCaller peer
  server.requireTenantWrite peer req.tenantId
  match (server.storage .workloads)[workloadKey req.tenantId req.workloadId]? with
  | none => .error ⟨.notFound,"workload '" ++ req.tenantId ++ "/" ++ req.workloadId ++ "' not found"⟩
  | some bytes =>
    let record : WorkloadSpecRecord ← (fromBytes bytes).mapError fun e =>
      ⟨.internal,"failed to decode workload record: " ++ e⟩
    let spec ← (decodeWorkloadSpec record.specBytes).mapError fun e =>
      ⟨.internal,"failed to decode workload spec: " ++ e⟩
    let scaled := { spec with replicas := req.replicas }
    server.checkTenantQuota req.tenantId scaled
    pure ⟨.scaleWorkload { record with specBytes := encodeWorkloadSpec scaled },
      some (server.buildAuditContext peer requestId req.workloadId)⟩

theorem submitWorkloadSpec_proposes (ok : server.submitWorkloadSpec peer requestId spec = .ok audited) :
    server.requireTenantWrite peer spec.tenantId = .ok () ∧ validateIdentifier spec.tenantId "tenant_id" = .ok () ∧
      audited.cmd = .submitWorkloadSpec ⟨spec.tenantId,spec.workloadId,encodeWorkloadSpec spec,[]⟩ := by
  obtain ⟨_,_,ok⟩ := bind_ok ok
  obtain ⟨_,write,ok⟩ := bind_ok ok
  obtain ⟨_,tenant,ok⟩ := bind_ok ok
  obtain ⟨_,_,ok⟩ := bind_ok ok
  split at ok
  · cases ok
  split at ok
  · cases ok
  split at ok
  · cases ok
  obtain ⟨_,_,ok⟩ := bind_ok ok
  split at ok
  · cases ok
  obtain ⟨_,_,ok⟩ := bind_ok ok
  obtain ⟨_,_,ok⟩ := bind_ok ok
  obtain ⟨_,_,ok⟩ := bind_ok ok
  cases ok
  exact ⟨write,tenant,rfl⟩

theorem scaleWorkload_proposes (ok : server.scaleWorkload peer requestId req = .ok audited) :
    server.requireTenantWrite peer req.tenantId = .ok () ∧ ∃ bytes, ∃ record : WorkloadSpecRecord, ∃ spec,
      (server.storage .workloads)[workloadKey req.tenantId req.workloadId]? = some bytes ∧
      fromBytes bytes = .ok record ∧ decodeWorkloadSpec record.specBytes = .ok spec ∧
      audited.cmd = .scaleWorkload
        { record with specBytes := encodeWorkloadSpec { spec with replicas := req.replicas } } := by
  obtain ⟨_,_,ok⟩ := bind_ok ok
  obtain ⟨_,write,ok⟩ := bind_ok ok
  split at ok
  · cases ok
  case h_2 bytes stored =>
    obtain ⟨record,decoded,ok⟩ := bind_ok ok
    obtain ⟨spec,read,ok⟩ := bind_ok ok
    obtain ⟨_,_,ok⟩ := bind_ok ok
    cases ok
    exact ⟨write,bytes,record,spec,stored,mapError_ok.mp decoded,mapError_ok.mp read,rfl⟩

end AdminServer

end

namespace WorkloadSpec

def pods (spec : WorkloadSpec) : Nat := (spec.replicas.toList.map fun entry => entry.2.toNat).sum

def cpu (spec : WorkloadSpec) : Nat :=
  ((spec.podSpec.bind (·.resources)).map fun r => r.vcpus.toNat * 1000).getD 0 * spec.pods

def memory (spec : WorkloadSpec) : Nat :=
  ((spec.podSpec.bind (·.resources)).map fun r => r.memoryMb.toNat * 1024 * 1024).getD 0 * spec.pods

end WorkloadSpec

theorem foldl_wrapped {α : Type} {amount : α → UInt64} {exact : α → Nat}
    (wrapped : ∀ item, amount item = UInt64.ofNat (exact item)) (items : List α) (start : Nat) :
    items.foldl (fun sum item => sum + amount item) (UInt64.ofNat start) =
      UInt64.ofNat (start + (items.map exact).sum) := by
  induction items generalizing start with
  | nil => simp
  | cons item items ih =>
    rw [List.foldl_cons,wrapped,← UInt64.ofNat_add,ih,List.map_cons,List.sum_cons,Nat.add_assoc]

theorem totalReplicas_wrapped (spec : WorkloadSpec) : spec.totalReplicas = UInt64.ofNat spec.pods := by
  have sums := foldl_wrapped (fun entry : String × UInt32 => (UInt64.ofNat_uInt32ToNat entry.2).symm) spec.replicas.toList 0
  rw [Nat.zero_add] at sums
  exact sums

theorem cpu_wrapped (spec : WorkloadSpec) : spec.cpuPerPod * spec.totalReplicas = UInt64.ofNat spec.cpu := by
  rw [totalReplicas_wrapped,WorkloadSpec.cpu,UInt64.ofNat_mul,WorkloadSpec.cpuPerPod]
  cases spec.podSpec.bind (·.resources) <;> simp

theorem memory_wrapped (spec : WorkloadSpec) : spec.memPerPod * spec.totalReplicas = UInt64.ofNat spec.memory := by
  rw [totalReplicas_wrapped,WorkloadSpec.memory,UInt64.ofNat_mul,WorkloadSpec.memPerPod]
  cases spec.podSpec.bind (·.resources) <;> simp

section
variable [FleetosCore]

def WorkloadSpecRecord.amount (quantity : WorkloadSpec → Nat) (record : WorkloadSpecRecord) : Nat :=
  ((decodeWorkloadSpec record.specBytes).toOption.map quantity).getD 0

def totalOf (quantity : WorkloadSpec → Nat) (records : List WorkloadSpecRecord) : Nat :=
  (records.map (·.amount quantity)).sum

theorem decoded_total (quantity : WorkloadSpec → Nat) (records : List WorkloadSpecRecord) :
    ((records.filterMap fun record => (decodeWorkloadSpec record.specBytes).toOption).map quantity).sum =
      totalOf quantity records := by
  unfold totalOf
  induction records with
  | nil => rfl
  | cons record records ih =>
    cases read : (decodeWorkloadSpec record.specBytes).toOption <;>
      simp [read,ih,WorkloadSpecRecord.amount]

variable [Formats]

theorem computeTenantUsage_wrapped (storage : Disk) (tenantId : String) : computeTenantUsage storage tenantId =
      (UInt64.ofNat (totalOf WorkloadSpec.cpu ((listWorkloads storage).filter (·.tenantId = tenantId))),
        UInt64.ofNat (totalOf WorkloadSpec.memory ((listWorkloads storage).filter (·.tenantId = tenantId))),
        UInt32.ofNat ((listWorkloads storage).filter (·.tenantId = tenantId)).length) := by
  have cpu := foldl_wrapped cpu_wrapped (((listWorkloads storage).filter (·.tenantId = tenantId)).filterMap fun record =>
    (decodeWorkloadSpec record.specBytes).toOption) 0
  have memory := foldl_wrapped memory_wrapped (((listWorkloads storage).filter (·.tenantId = tenantId)).filterMap
    fun record => (decodeWorkloadSpec record.specBytes).toOption) 0
  rw [decoded_total,Nat.zero_add] at cpu memory
  simp only [computeTenantUsage]
  rw [← cpu,← memory]
  rfl

def tenantEntries (contents : Contents) (tenantId : String) : List (Bytes × WorkloadSpecRecord) :=
  (contents.toList.filterMap fun entry =>
    (fromBytes (α := WorkloadSpecRecord) entry.2).toOption.map (entry.1,·)).filter fun entry => entry.2.tenantId = tenantId

theorem tenantEntries_records (storage : Disk) (tenantId : String) :
    (tenantEntries (storage .workloads) tenantId).map Prod.snd =
      (listWorkloads storage).filter (·.tenantId = tenantId) := by
  have records : ((storage .workloads).toList.filterMap fun entry =>
      (fromBytes (α := WorkloadSpecRecord) entry.2).toOption.map (entry.1,·)).map Prod.snd = listWorkloads storage := by
    rw [List.map_filterMap]
    simp [listWorkloads,scanRecords,Function.comp_def]
  rw [← records,List.filter_map]
  rfl

def remains (tenantId workloadId : String) (entry : Bytes × WorkloadSpecRecord) : Bool :=
  entry.1 = workloadKey tenantId entry.2.workloadId && entry.2.workloadId ≠ workloadId

def otherWorkloads (contents : Contents) (tenantId workloadId : String) : List WorkloadSpecRecord :=
  ((tenantEntries contents tenantId).filter (remains tenantId workloadId)).map Prod.snd

/-- What the check counts besides: the version to be replaced, and entries under keys that are not theirs. -/
def countedBesides (contents : Contents) (tenantId workloadId : String) : List WorkloadSpecRecord :=
  ((tenantEntries contents tenantId).filter (!remains tenantId workloadId ·)).map Prod.snd

theorem counted_perm (storage : Disk) (tenantId workloadId : String) :
    (otherWorkloads (storage .workloads) tenantId workloadId ++ countedBesides (storage .workloads) tenantId workloadId).Perm
      ((listWorkloads storage).filter (·.tenantId = tenantId)) := by
  rw [← tenantEntries_records,otherWorkloads,countedBesides,← List.map_append]
  exact (List.filter_append_perm (remains tenantId workloadId) _).map Prod.snd

theorem counted_total (quantity : WorkloadSpec → Nat) (storage : Disk) (tenantId workloadId : String) :
    totalOf quantity ((listWorkloads storage).filter (·.tenantId = tenantId)) =
      totalOf quantity (otherWorkloads (storage .workloads) tenantId workloadId) +
        totalOf quantity (countedBesides (storage .workloads) tenantId workloadId) := by
  have sums := ((counted_perm storage tenantId workloadId).map (WorkloadSpecRecord.amount quantity)).sum_nat
  rw [List.map_append,List.sum_append] at sums
  exact sums.symm

structure Totals where
  cpu : Nat
  memory : Nat
  workloads : Nat

def Totals.Within (totals : Totals) (quota : TenantQuotaRecord) : Prop :=
  totals.workloads ≤ quota.maxWorkloads.toNat ∧ totals.cpu ≤ quota.maxCpuMillicores.toNat ∧
    totals.memory ≤ quota.maxMemoryBytes.toNat

def totalsAfter (contents : Contents) (tenantId workloadId : String) (spec : WorkloadSpec) : Totals where
  cpu := totalOf WorkloadSpec.cpu (otherWorkloads contents tenantId workloadId) + spec.cpu
  memory := totalOf WorkloadSpec.memory (otherWorkloads contents tenantId workloadId) + spec.memory
  workloads := (otherWorkloads contents tenantId workloadId).length + 1

/-- The totals fit the words they are summed in, and whatever is counted besides adds nothing to them. -/
structure SumsExactly (contents : Contents) (tenantId workloadId : String) (spec : WorkloadSpec) : Prop where
  cpu : (totalsAfter contents tenantId workloadId spec).cpu < 2^64 ∧
    totalOf WorkloadSpec.cpu (countedBesides contents tenantId workloadId) % 2^64 = 0
  memory : (totalsAfter contents tenantId workloadId spec).memory < 2^64 ∧
    totalOf WorkloadSpec.memory (countedBesides contents tenantId workloadId) % 2^64 = 0
  workloads : (totalsAfter contents tenantId workloadId spec).workloads < 2^32 ∧
    (countedBesides contents tenantId workloadId).length % 2^32 = 0

def totalsChecked (contents : Contents) (tenantId workloadId : String) (spec : WorkloadSpec) : Totals where
  cpu := (totalOf WorkloadSpec.cpu (otherWorkloads contents tenantId workloadId) +
    totalOf WorkloadSpec.cpu (countedBesides contents tenantId workloadId) + spec.cpu) % 2^64
  memory := (totalOf WorkloadSpec.memory (otherWorkloads contents tenantId workloadId) +
    totalOf WorkloadSpec.memory (countedBesides contents tenantId workloadId) + spec.memory) % 2^64
  workloads := ((otherWorkloads contents tenantId workloadId).length +
    (countedBesides contents tenantId workloadId).length + 1) % 2^32

theorem limits_iff {workloads maxWorkloads : UInt32} {cpu maxCpu memory maxMemory : UInt64} :
    (if maxWorkloads < workloads then resourceExhausted tooMany else if maxCpu < cpu then resourceExhausted tooFast
      else if maxMemory < memory then resourceExhausted tooLarge
      else pure ()) = (.ok () : Except Status Unit) ↔
      workloads ≤ maxWorkloads ∧ cpu ≤ maxCpu ∧ memory ≤ maxMemory := by
  rw [← UInt32.not_lt,← UInt64.not_lt,← UInt64.not_lt]
  by_cases many : maxWorkloads < workloads
  · simp [many,resourceExhausted]
  · by_cases fast : maxCpu < cpu
    · simp [many,fast,resourceExhausted]
    · by_cases large : maxMemory < memory <;> simp [many,fast,large,resourceExhausted,Pure.pure,Except.pure]

theorem checkTenantQuota_iff {server : AdminServer}
    (stored : getTenantQuota server.storage tenantId = .ok (some quota)) (workloadId : String) (spec : WorkloadSpec) :
    server.checkTenantQuota tenantId spec = .ok () ↔
      (totalsChecked (server.storage .workloads) tenantId workloadId spec).Within quota := by
  have counted : ((listWorkloads server.storage).filter (·.tenantId = tenantId)).length =
      (otherWorkloads (server.storage .workloads) tenantId workloadId).length +
        (countedBesides (server.storage .workloads) tenantId workloadId).length := by
    rw [← (counted_perm server.storage tenantId workloadId).length_eq,List.length_append]
  simp only [AdminServer.checkTenantQuota,stored,Except.mapError,Bind.bind,Except.bind,computeTenantUsage_wrapped,
    cpu_wrapped,memory_wrapped,← UInt64.ofNat_add,counted_total _ server.storage tenantId workloadId,counted]
  have workloads : UInt32.ofNat ((otherWorkloads (server.storage .workloads) tenantId workloadId).length +
      (countedBesides (server.storage .workloads) tenantId workloadId).length) + 1 =
      UInt32.ofNat ((otherWorkloads (server.storage .workloads) tenantId workloadId).length +
        (countedBesides (server.storage .workloads) tenantId workloadId).length + 1) := by
    rw [UInt32.ofNat_add _ 1]
    rfl
  rw [workloads,limits_iff]
  simp only [Totals.Within,totalsChecked,UInt64.le_iff_toNat_le,UInt32.le_iff_toNat_le,UInt64.toNat_ofNat',
    UInt32.toNat_ofNat']

theorem sumsExactly_iff (contents : Contents) (tenantId workloadId : String) (spec : WorkloadSpec) :
    SumsExactly contents tenantId workloadId spec ↔
      totalsChecked contents tenantId workloadId spec = totalsAfter contents tenantId workloadId spec := by
  have wraps : ∀ others besides new : Nat,
      (others + new < 2^64 ∧ besides % 2^64 = 0) ↔ (others + besides + new) % 2^64 = others + new := by
    intro others besides new
    omega
  have counts : ∀ others besides : Nat,
      (others + 1 < 2^32 ∧ besides % 2^32 = 0) ↔ (others + besides + 1) % 2^32 = others + 1 := by
    intro others besides
    omega
  unfold totalsChecked
  rw [show totalsAfter contents tenantId workloadId spec = ⟨_,_,_⟩ from rfl,Totals.mk.injEq,← wraps,← wraps,← counts]
  exact ⟨fun sums => ⟨sums.cpu,sums.memory,sums.workloads⟩,fun ⟨cpu,memory,workloads⟩ => ⟨cpu,memory,workloads⟩⟩

def quotaServer (contents : Contents) (tenantId : String) (quota : TenantQuotaRecord) : AdminServer where
  storage keyspace := match keyspace with
    | .workloads => contents
    | .tenantQuotas => (∅ : Contents).insert (asBytes tenantId) (toAllocvec quota)
    | _ => ∅
  bootstrapAdmins := []
  nodeTtlSecs := 0
  now := 0

theorem quotaServer_quota (contents : Contents) (tenantId : String) (quota : TenantQuotaRecord) :
    getTenantQuota (quotaServer contents tenantId quota).storage tenantId = .ok (some quota) := by
  simp [getTenantQuota,quotaServer,Except.mapError,Except.map]

def Totals.Fits (totals : Totals) : Prop := totals.cpu < 2^64 ∧ totals.memory < 2^64 ∧ totals.workloads < 2^32

def Totals.limit (totals : Totals) : TenantQuotaRecord :=
  ⟨"",.ofNat totals.cpu,.ofNat totals.memory,.ofNat totals.workloads⟩

theorem within_limit {totals : Totals} (fits : totals.Fits) (other : Totals) : other.Within totals.limit ↔
      other.workloads ≤ totals.workloads ∧ other.cpu ≤ totals.cpu ∧ other.memory ≤ totals.memory := by
  obtain ⟨cpu,memory,workloads⟩ := fits
  simp only [Totals.Within,Totals.limit,UInt64.toNat_ofNat',UInt32.toNat_ofNat',Nat.mod_eq_of_lt cpu,
    Nat.mod_eq_of_lt memory,Nat.mod_eq_of_lt workloads]

theorem totals_eq_of_within {checked after : Totals} (fits : checked.Fits)
    (same : ∀ quota, checked.Within quota ↔ after.Within quota) : checked = after := by
  obtain ⟨fewer,slower,smaller⟩ := (within_limit fits after).mp
    ((same checked.limit).mp ((within_limit fits checked).mpr ⟨le_rfl,le_rfl,le_rfl⟩))
  have fitsAfter : after.Fits := ⟨slower.trans_lt fits.1,smaller.trans_lt fits.2.1,fewer.trans_lt fits.2.2⟩
  obtain ⟨more,faster,larger⟩ := (within_limit fitsAfter checked).mp
    ((same after.limit).mpr ((within_limit fitsAfter after).mpr ⟨le_rfl,le_rfl,le_rfl⟩))
  obtain ⟨checkedCpu,checkedMemory,checkedWorkloads⟩ := checked
  obtain ⟨afterCpu,afterMemory,afterWorkloads⟩ := after
  rw [Totals.mk.injEq]
  exact ⟨faster.antisymm slower,larger.antisymm smaller,more.antisymm fewer⟩

/-- The check agrees with every quota if and only if it sums exactly. -/
theorem quota_exact_iff (contents : Contents) (tenantId workloadId : String) (spec : WorkloadSpec) :
    (∀ (server : AdminServer) quota, server.storage .workloads = contents →
      getTenantQuota server.storage tenantId = .ok (some quota) →
      (server.checkTenantQuota tenantId spec = .ok () ↔ (totalsAfter contents tenantId workloadId spec).Within quota)) ↔
      SumsExactly contents tenantId workloadId spec := by
  rw [sumsExactly_iff]
  constructor
  · intro exact
    refine totals_eq_of_within ⟨Nat.mod_lt _ (by decide),Nat.mod_lt _ (by decide),Nat.mod_lt _ (by decide)⟩ ?_
    intro quota
    have stored : getTenantQuota (quotaServer contents tenantId quota).storage tenantId = .ok (some quota) :=
      quotaServer_quota contents tenantId quota
    rw [← exact (quotaServer contents tenantId quota) quota rfl stored,checkTenantQuota_iff stored workloadId]
    rfl
  · intro same server quota own stored
    rw [checkTenantQuota_iff stored workloadId,own,same]

end

open Reference

def sizedShop (replicas : List (String × UInt32)) (memoryMb : UInt32) : WorkloadSpec where
  tenantId := "acme"
  workloadId := "shop"
  image := "shop:v1"
  replicas := .ofList replicas
  podSpec := some { resources := some ⟨1,memoryMb,0⟩ }

def sizedContents : Contents :=
  (∅ : Contents).insert (workloadKey "acme" "shop")
    (toAllocvec (⟨"acme","shop",encodeWorkloadSpec (sizedShop [("web",1)] 256),[]⟩ : WorkloadSpecRecord))

def tightQuota : TenantQuotaRecord := ⟨"acme",4000,1073741824,1⟩

-- 8 roles with 1024 replicas of 2^31 MiB each take 2^64 bytes
def eightRoles : List (String × UInt32) :=
  ["a","b","c","d","e","f","g","h"].map fun role => (role,1024)

instance (totals : Totals) (quota : TenantQuotaRecord) : Decidable (totals.Within quota) :=
  inferInstanceAs (Decidable (_ ∧ _))

/-- The only workload of a tenant that may have one is not scaled, and 16 EiB are admitted under a quota of none. -/
theorem scaling_counted_twice :
    (totalsAfter sizedContents "acme" "shop" (sizedShop [("web",2)] 256)).Within tightQuota ∧
    ((quotaServer sizedContents "acme" tightQuota).scaleWorkload fleetctlProxy "req-1"
      ⟨"acme","shop",(sizedShop [("web",2)] 256).replicas⟩).isOk = false ∧
    ¬(totalsAfter ∅ "acme" "shop" (sizedShop eightRoles 2147483648)).Within ⟨"acme",100000000,0,10⟩ ∧
    ((quotaServer ∅ "acme" ⟨"acme",100000000,0,10⟩).submitWorkloadSpec fleetctlProxy "req-1"
      (sizedShop eightRoles 2147483648)).isOk = true := by
  refine ⟨?_,?_,?_,?_⟩ <;> decide +kernel

end FleetosControl
