import Mathlib.Data.Prod.Lex
import FleetosControl.Core

/-! The records that commands carry and keyspaces hold, the keyspaces, the commands, and the log entries
around them. Log ids are ordered by leader term, node and index. -/
namespace FleetosControl
open Wire Std

inductive NodeStatus where
  | active | cordoned | evicted
  deriving DecidableEq, Repr

structure NodeRecord where
  nodeId : String
  nodeKind : UInt8
  status : NodeStatus
  schedulable : Bool
  lastHeartbeat : Int64
  registeredAt : Int64
  capacityCpuMillicores : UInt64
  capacityMemoryBytes : UInt64
  failureDomain : String
  deriving DecidableEq

structure TenantRecord where
  tenantId : String
  createdAt : Int64
  lastAppliedBytes : Bytes
  deriving DecidableEq

structure WorkloadSpecRecord where
  tenantId : String
  workloadId : String
  specBytes : Bytes
  lastAppliedBytes : Bytes
  deriving DecidableEq

structure CronWorkloadRecord where
  tenantId : String
  cronWorkloadId : String
  scheduleExpression : String
  specBytes : Bytes
  deriving DecidableEq

structure SagRuleRecord where
  ruleId : String
  ruleBytes : Bytes
  lastAppliedBytes : Bytes
  deriving DecidableEq

structure SecretRecord where
  key : String
  envelopeBytes : Bytes
  aclBytes : Bytes
  lastAppliedBytes : Bytes
  deriving DecidableEq

structure RevokedSvidRecord where
  spiffeId : String
  expiresAtUnix : Int64
  deriving DecidableEq

structure AuditContext where
  requestId : String
  actor : String
  target : String
  timestampUnix : UInt64
  deriving DecidableEq

structure AuditRecord where
  version : UInt64
  requestId : String
  actor : String
  action : String
  target : String
  timestampUnix : UInt64
  deriving DecidableEq

structure CronCheckpointRecord where
  tenantId : String
  cronWorkloadId : String
  lastTriggeredAtUnix : Int64
  deriving DecidableEq

structure OperatorAccessGrantRecord where
  grantId : String
  operatorId : String
  grantedBy : String
  grantedAtUnix : UInt64
  expiresAtUnix : UInt64
  clusterAdmin : Bool
  readOnly : Bool
  tenants : List String
  deriving DecidableEq

structure WorkloadStatusRecord where
  podId : String
  workloadId : String
  tenantId : String
  ready : Bool
  live : Bool
  started : Bool
  policyEnforced : Bool
  restartCount : UInt32
  observedAtUnix : Int64
  routerConnected : Bool
  gateViolationSinceUnix : Int64
  deriving DecidableEq

structure TenantQuotaRecord where
  tenantId : String
  maxCpuMillicores : UInt64
  maxMemoryBytes : UInt64
  maxWorkloads : UInt32
  deriving DecidableEq

structure ControlNodeAddressRecord where
  nodeId : UInt64
  dcAddr : String
  raftAddr : String
  deriving DecidableEq

inductive EkRegistrationState where
  | pending | joined | revoked
  deriving DecidableEq, Repr

structure NodeEkRecord where
  ekFingerprint : String
  ekPub : Bytes
  ekCertDer : Bytes
  nodeId : String
  registeredAt : Int64
  expiresAt : Option Int64
  state : EkRegistrationState
  deriving DecidableEq

structure NodeTaint where
  key : String
  value : String
  effect : String
  timeAddedUnix : Int64
  deriving DecidableEq

structure VpaRecommendationRecord where
  tenantId : String
  workloadId : String
  recommendedVcpus : UInt32
  recommendedMemoryMb : UInt32
  currentVcpus : UInt32
  currentMemoryMb : UInt32
  computedAtUnix : Int64
  mode : String
  deriving DecidableEq

inductive NodeKind where
  | agent | router | gateway | control | fleetctlProxy
  deriving DecidableEq, Repr

structure JoinTokenRecord where
  token : Bytes
  nodeKind : NodeKind
  createdAt : Int64
  expiresAt : Option Int64
  consumed : Bool
  deriving DecidableEq

structure PcrValue where
  index : UInt8
  hashAlgorithm : UInt16
  digest : Bytes
  deriving DecidableEq

structure PcrPolicy where
  nodeId : String
  expectedPcrs : List PcrValue
  updatedAt : Int64
  active : Bool
  deriving DecidableEq

structure TenantBlock where
  tenantId : String
  base : UInt32
  prefixLen : UInt8
  nextOffset : UInt32
  deriving DecidableEq

structure ServiceAddress where
  tenantId : String
  service : String
  role : String
  address : UInt32
  deriving DecidableEq

structure OrdinalAssignment where
  tenantId : String
  service : String
  role : String
  ordinal : UInt32
  currentPodId : Option String
  currentNodeId : Option String
  deriving DecidableEq

structure ResourceSpec where
  cpuMillicores : UInt64
  memoryBytes : UInt64
  deriving DecidableEq

structure NodePoolRecord where
  poolId : String
  nodeKind : NodeKind
  desiredCount : UInt32
  vcpus : UInt32
  memoryMb : UInt32
  diskGb : UInt32
  regionHint : String
  lastAppliedBytes : Bytes
  deriving DecidableEq

structure SvidRecord where
  spiffeId : String
  svidVersion : UInt64
  issuedAtUnix : Int64
  agentX25519Pubkey : Bytes
  deriving DecidableEq

structure ManifestUpdate where
  targetKeyspace : String
  targetKey : Bytes
  newRecordBytes : Bytes
  deriving DecidableEq

structure SecretAcl where
  entries : ExtTreeMap String (ExtTreeSet String compare) compare

section
variable [FleetosCore]

structure DelegationRecord where
  delegationId : String
  nodeId : SpiffeId
  targetSvidId : SpiffeId
  targetOrdinal : Option UInt32
  issuedAt : Int64
  expiresAt : Int64
  refreshAt : Int64

structure Placement where
  podId : String
  tenantId : String
  service : String
  role : String
  ordinal : UInt32
  nodeId : SpiffeId
  resources : ResourceSpec
  deriving DecidableEq

namespace SecretAcl

def new : SecretAcl := ⟨∅⟩

def grant (acl : SecretAcl) (secretKey : String) (spiffeId : SpiffeId) : SecretAcl :=
  ⟨acl.entries.insert secretKey ((acl.entries[secretKey]?.getD ∅).insert (display spiffeId))⟩

def revoke (acl : SecretAcl) (secretKey : String) (spiffeId : SpiffeId) : SecretAcl :=
  match acl.entries[secretKey]? with
  | none => acl
  | some set =>
    let set := set.erase (display spiffeId)
    if set.isEmpty then ⟨acl.entries.erase secretKey⟩ else ⟨acl.entries.insert secretKey set⟩

end SecretAcl

end

structure LeaderId where
  term : UInt64
  nodeId : UInt64
  deriving DecidableEq, Repr

structure LogId where
  leaderId : LeaderId
  index : UInt64
  deriving DecidableEq, Repr

namespace LogId

def rank (id : LogId) : ℕ ×ₗ ℕ ×ₗ ℕ :=
  toLex (id.leaderId.term.toNat,toLex (id.leaderId.nodeId.toNat,id.index.toNat))

theorem rank_injective : Function.Injective rank := by
  rintro ⟨⟨term,node⟩,index⟩ ⟨⟨term',node'⟩,index'⟩ same
  simp only [rank,EmbeddingLike.apply_eq_iff_eq,Prod.mk.injEq,UInt64.toNat_inj] at same
  obtain ⟨rfl,rfl,rfl⟩ := same
  rfl

instance : LinearOrder LogId := LinearOrder.lift' rank rank_injective

end LogId

structure BasicNode where
  addr : String
  deriving DecidableEq

structure Membership where
  configs : List (List UInt64)
  nodes : List (UInt64 × BasicNode)
  deriving DecidableEq

structure StoredMembership where
  logId : Option LogId
  membership : Membership
  deriving DecidableEq

-- `StoredMembership::default()`: no log id, no configuration, no node
def StoredMembership.default : StoredMembership := ⟨none,⟨[],[]⟩⟩

structure SnapshotMeta where
  lastLogId : Option LogId
  lastMembership : StoredMembership
  snapshotId : String
  deriving DecidableEq

structure Snapshot where
  info : SnapshotMeta
  data : Bytes
  deriving DecidableEq

structure ApplicationSnapshot where
  keyspaces : List (String × List (Bytes × Bytes))
  deriving DecidableEq

structure FleetosResponse where
  version : UInt64
  deriving DecidableEq

inductive ChangeKind where
  | sagUpdate
  | trustBundleRotation
  | clusterMembership
  | secretRotation (targetSpiffeId : String)
  | revokedDelegations
  | schedulingUpdate
  | dummyIpUpdate
  | eviction
  | svidRotation (spiffeId : String) (svidVersion : UInt64)
  deriving DecidableEq

section
variable [FleetosCore]

inductive FleetosCommand where
  | createTenant (record : TenantRecord) (block : TenantBlock)
  | deleteTenant (tenantId : String)
  | submitWorkloadSpec (record : WorkloadSpecRecord)
  | deleteWorkload (tenantId workloadId : String)
  | scaleWorkload (record : WorkloadSpecRecord)
  | resizeWorkload (record : WorkloadSpecRecord)
  | upsertVpaRecommendation (record : VpaRecommendationRecord)
  | setTenantQuota (record : TenantQuotaRecord)
  | submitCronWorkload (record : CronWorkloadRecord) (checkpoint : CronCheckpointRecord)
  | triggerCronWorkload (workloadRecord : WorkloadSpecRecord) (checkpoint : CronCheckpointRecord)
  | upsertWorkloadStatus (record : WorkloadStatusRecord)
  | mintJoinToken (record : JoinTokenRecord)
  | consumeJoinToken (token : Bytes)
  | setPcrPolicy (record : PcrPolicy)
  | registerNode (record : NodeRecord)
  | evictNode (nodeId : String) (svidExpiresAtUnix : Int64)
  | pruneExpiredRevokedSvids (cutoffUnix : Int64)
  | setNodeSchedulable (nodeId : String) (schedulable : Bool)
  | nodeHeartbeat (nodeId : String) (lastHeartbeat : Int64)
  | issueDelegation (record : DelegationRecord)
  | revokeDelegation (nodeId delegationId : String)
  | upsertSagRule (record : SagRuleRecord)
  | deleteSagRule (ruleId : String)
  | allocateTenantBlock (record : TenantBlock)
  | allocateServiceAddress (block : TenantBlock) (address : ServiceAddress)
  | storeSecret (record : SecretRecord) (targetSpiffeId : String)
  | grantSecretAccess (tenantId key spiffeId : String)
  | revokeSecretAccess (tenantId key spiffeId : String)
  | recordOrdinalAssignment (record : OrdinalAssignment)
  | commitPlacement (record : Placement)
  | removePlacement (podId : String)
  | reassignPodId (tenantId service role : String) (ordinal : UInt32) (newPodId : String)
  | storeNodePool (record : NodePoolRecord)
  | deleteNodePool (poolId : String)
  | registerControlAddress (record : ControlNodeAddressRecord)
  | upsertSvidVersion (record : SvidRecord)
  | grantOperatorAccess (record : OperatorAccessGrantRecord)
  | revokeOperatorAccess (grantId : String)
  | registerNodeEk (record : NodeEkRecord)
  | activateNodeEk (ekFingerprint nodeId : String)
  | revokeNodeEk (ekFingerprint : String)
  | setNodeTaints (nodeId : String) (taints : List NodeTaint)
  | removeNodeTaint (nodeId key effect : String)
  | applyManifests (updates : List ManifestUpdate)

structure AuditedCommand where
  cmd : FleetosCommand
  audit : Option AuditContext

def AuditedCommand.system (cmd : FleetosCommand) : AuditedCommand := ⟨cmd,none⟩

inductive EntryPayload where
  | blank
  | normal (audited : AuditedCommand)
  | membership (membership : Membership)

structure Entry where
  logId : LogId
  payload : EntryPayload

class Formats where
  [tenantRecord : Postcard TenantRecord]
  [tenantBlock : Postcard TenantBlock]
  [workloadSpecRecord : Postcard WorkloadSpecRecord]
  [vpaRecommendationRecord : Postcard VpaRecommendationRecord]
  [tenantQuotaRecord : Postcard TenantQuotaRecord]
  [cronWorkloadRecord : Postcard CronWorkloadRecord]
  [cronCheckpointRecord : Postcard CronCheckpointRecord]
  [workloadStatusRecord : Postcard WorkloadStatusRecord]
  [joinTokenRecord : Postcard JoinTokenRecord]
  [pcrPolicy : Postcard PcrPolicy]
  [nodeRecord : Postcard NodeRecord]
  [revokedSvidRecord : Postcard RevokedSvidRecord]
  [delegationRecord : Postcard DelegationRecord]
  [serviceAddress : Postcard ServiceAddress]
  [secretAcl : Postcard SecretAcl]
  [ordinalAssignment : Postcard OrdinalAssignment]
  [placement : Postcard Placement]
  [nodePoolRecord : Postcard NodePoolRecord]
  [controlNodeAddressRecord : Postcard ControlNodeAddressRecord]
  [svidRecord : Postcard SvidRecord]
  [operatorAccessGrantRecord : Postcard OperatorAccessGrantRecord]
  [nodeEkRecord : Postcard NodeEkRecord]
  [nodeTaints : Postcard (List NodeTaint)]
  [logId : Postcard LogId]
  [storedMembership : Postcard StoredMembership]
  [auditRecord : Postcard AuditRecord]
  [snapshotMeta : Postcard SnapshotMeta]
  [applicationSnapshot : Postcard ApplicationSnapshot]
  [entry : Postcard Entry]

attribute [reducible,instance] Formats.tenantRecord Formats.tenantBlock Formats.workloadSpecRecord
  Formats.vpaRecommendationRecord Formats.tenantQuotaRecord Formats.cronWorkloadRecord Formats.cronCheckpointRecord
  Formats.workloadStatusRecord Formats.joinTokenRecord Formats.pcrPolicy Formats.nodeRecord Formats.revokedSvidRecord
  Formats.delegationRecord Formats.serviceAddress Formats.secretAcl Formats.ordinalAssignment Formats.placement
  Formats.nodePoolRecord Formats.controlNodeAddressRecord Formats.svidRecord Formats.operatorAccessGrantRecord
  Formats.nodeEkRecord Formats.nodeTaints Formats.logId Formats.storedMembership Formats.auditRecord
  Formats.snapshotMeta Formats.applicationSnapshot Formats.entry

end

inductive Keyspace where
  | version | raftLog | raftLogMeta | raftState | raftSnapshot
  | nodes | svids | sagRules | joinTokens | revokedDelegations | activeDelegations
  | ordinals | placements | tenants | workloads | secrets | dummyIps | pcrPolicies
  | routerAssignments | nodePools | nodeTaints | trustBundles
  | nonces | nonceClaims | svidGrants | revokedSvids | auditLog | cronCheckpoints
  | operatorGrants | workloadStatus | tenantQuotas | controlAddresses
  | nodeEks | pendingActivations | vpaRecommendations
  deriving DecidableEq, Repr

namespace Keyspace

def name : Keyspace → String
  | version => "app_version"
  | raftLog => "raft_log"
  | raftLogMeta => "raft_log_meta"
  | raftState => "raft_state"
  | raftSnapshot => "raft_snapshot"
  | nodes => "app_nodes"
  | svids => "app_svids"
  | sagRules => "app_sag_rules"
  | joinTokens => "app_join_tokens"
  | revokedDelegations => "app_revoked_delegations"
  | activeDelegations => "app_active_delegations"
  | ordinals => "app_ordinals"
  | placements => "app_placements"
  | tenants => "app_tenants"
  | workloads => "app_workloads"
  | secrets => "app_secrets"
  | dummyIps => "app_dummy_ips"
  | pcrPolicies => "app_pcr_policies"
  | routerAssignments => "app_router_assignments"
  | nodePools => "node_pools"
  | nodeTaints => "app_node_taints"
  | trustBundles => "app_trust_bundles"
  | nonces => "app_nonces"
  | nonceClaims => "app_nonce_claims"
  | svidGrants => "app_svid_grants"
  | revokedSvids => "app_revoked_svids"
  | auditLog => "app_audit_log"
  | cronCheckpoints => "app_cron_checkpoints"
  | operatorGrants => "app_operator_grants"
  | workloadStatus => "app_workload_status"
  | tenantQuotas => "app_tenant_quotas"
  | controlAddresses => "app_control_addresses"
  | nodeEks => "app_node_eks"
  | pendingActivations => "app_pending_activations"
  | vpaRecommendations => "app_vpa_recommendations"

end Keyspace

def snapshotKeyspaces : List Keyspace :=
  [.version,.nodes,.svids,.sagRules,.joinTokens,.revokedDelegations,.activeDelegations,.ordinals,.placements,
    .tenants,.workloads,.secrets,.dummyIps,.pcrPolicies,.routerAssignments,.nodePools,.nodeTaints,.raftState,
    .trustBundles,.revokedSvids,.auditLog,.operatorGrants,.workloadStatus,.tenantQuotas,.cronCheckpoints,
    .controlAddresses,.nodeEks,.vpaRecommendations]

theorem snapshotKeyspaces_nodup : snapshotKeyspaces.Nodup := by decide

def snapshotKeyspace (name : String) : Option Keyspace :=
  snapshotKeyspaces.find? fun keyspace => keyspace.name = name

theorem snapshotKeyspace_name : ∀ keyspace ∈ snapshotKeyspaces, snapshotKeyspace keyspace.name = some keyspace := by
  decide

abbrev Disk := KeyValue.Store Keyspace Bytes Bytes compare

abbrev Write := KeyValue.Write Keyspace Bytes Bytes

abbrev Contents := ExtTreeMap Bytes Bytes compare

def Disk.empty : Disk := fun _ => ∅

theorem every_empty (holds : Keyspace → Bytes → Bytes → Prop) : KeyValue.Every holds Disk.empty := by
  intro keyspace key bytes found
  simp [Disk.empty] at found

inductive EngineError where
  | notFound (key : String)
  deriving DecidableEq

def versionKey : Bytes := asBytes "current"

def loadPersistedVersion (disk : Disk) : Except EngineError UInt64 :=
  match (disk .version)[versionKey]? with
  | some bytes =>
    match u64ofLe bytes with
    | some version => .ok version
    | none => .error (.notFound "corrupted version field")
  | none => .ok 0

-- `VersionedState::new`: what cannot be read counts as no version yet
def initialVersion (disk : Disk) : UInt64 :=
  match loadPersistedVersion disk with
  | .ok version => version
  | .error _ => 0

def persistVersion (version : UInt64) : Write := .insert .version versionKey (u64le version)

theorem initialVersion_congr (same : left .version = right .version) :
    initialVersion left = initialVersion right := by
  simp only [initialVersion,loadPersistedVersion,same]

theorem initialVersion_of_lookup {version : UInt64} (stored : (disk .version)[versionKey]? = some (u64le version)) :
    initialVersion disk = version := by
  simp [initialVersion,loadPersistedVersion,stored]

end FleetosControl
