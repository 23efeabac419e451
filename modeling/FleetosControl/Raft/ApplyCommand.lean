import FleetosControl.Raft.Command

/-! `apply_command`: the batch of writes one replicated command adds, computed from the application
keyspaces, and the kind of change it reports. -/
namespace FleetosControl
open Wire Std

inductive StorageError where
  | readStateMachine (source : String)
  | writeStateMachine (source : String)
  | readLogs (source : String)
  deriving DecidableEq

theorem mapError_ok {ε δ α : Type} {outcome : Except ε α} {wrap : ε → δ} {value} :
    outcome.mapError wrap = .ok value ↔ outcome = .ok value := by
  cases outcome <;> simp [Except.mapError]

theorem toOption_eq_some {ε α : Type} {outcome : Except ε α} {value} :
    outcome.toOption = some value ↔ outcome = .ok value := by
  cases outcome <;> simp [Except.toOption]

def serErr {α : Type} (decoded : Except String α) : Except StorageError α := decoded.mapError .writeStateMachine

@[simp] theorem serErr_eq_ok {α : Type} (decoded : Except String α) (value : α) :
    serErr decoded = .ok value ↔ decoded = .ok value := mapError_ok

def put {α : Type} [Postcard α] (keyspace : Keyspace) (key : Bytes) (record : α) : Write :=
  .insert keyspace key (toAllocvec record)

@[simp] theorem put_table {α : Type} [Postcard α] (keyspace : Keyspace) (key : Bytes) (record : α) :
    (put keyspace key record).table = keyspace := rfl

def readRecord (α : Type) [Postcard α] (disk : Disk) (keyspace : Keyspace) (key : Bytes) :
    Except StorageError (Option α) :=
  match (disk keyspace)[key]? with
  | some bytes => (serErr (fromBytes bytes)).map some
  | none => .ok none

theorem readRecord_of_lookup {α : Type} [Postcard α] {disk keyspace key value}
    (stored : (disk keyspace)[key]? = some (toAllocvec value)) : readRecord α disk keyspace key = .ok (some value) := by
  simp [readRecord,stored,serErr,Except.mapError,Except.map]

theorem readRecord_some {α : Type} [Postcard α] {disk keyspace key value} :
    readRecord α disk keyspace key = .ok (some value) ↔
      ∃ bytes, (disk keyspace)[key]? = some bytes ∧ fromBytes bytes = .ok value := by
  unfold readRecord
  cases (disk keyspace)[key]? with
  | none => simp
  | some bytes => cases decoded : fromBytes (α := α) bytes <;> simp [decoded,serErr,Except.mapError,Except.map]

/-- A scan in key order that skips values which do not decode. -/
def scanRecords (α : Type) [Postcard α] (disk : Disk) (keyspace : Keyspace) : List α :=
  (disk keyspace).toList.filterMap fun entry => (fromBytes (α := α) entry.2).toOption

theorem mem_scanRecords {α : Type} [Postcard α] {disk keyspace value} : value ∈ scanRecords α disk keyspace ↔
      ∃ key bytes : Bytes, (disk keyspace)[key]? = some bytes ∧ fromBytes bytes = .ok value := by
  simp only [scanRecords,mem_filterMap,Prod.exists,ExtTreeMap.mem_toList_iff_getElem?_eq_some]
  exact exists_congr fun key => exists_congr fun bytes => and_congr_right fun _ => toOption_eq_some

section
variable [FleetosCore]

def parseSpiffe (s : String) : Except StorageError SpiffeId :=
  (parse s).mapError fun e => .readStateMachine ("invalid SpiffeId '" ++ s ++ "': " ++ e)

@[simp] theorem parseSpiffe_display (id : SpiffeId) : parseSpiffe (display id) = .ok id := by
  simp [parseSpiffe,Except.mapError]

-- `node_len as u16` keeps the low sixteen bits of the length
def nodeDelegationPrefix (nodeId : SpiffeId) : Bytes :=
  leBytes 2 (asBytes (display nodeId)).length ++ asBytes (display nodeId)

def compositeDelegationKey (nodeId : SpiffeId) (delegationId : String) : Bytes :=
  nodeDelegationPrefix nodeId ++ asBytes delegationId

def workloadKey (tenantId workloadId : String) : Bytes := asBytes (tenantId ++ ":" ++ workloadId)

def ordinalKey (tenantId service role : String) (ordinal : UInt32) : Bytes :=
  asBytes (tenantId ++ ":" ++ service ++ ":" ++ role ++ ":" ++ toString ordinal)

def tenantBlockKey (tenantId : String) : Bytes := asBytes ("tenant:" ++ tenantId)

def aclKey (key : String) : Bytes := asBytes ("acl:" ++ key)

abbrev Applied := Except StorageError (List Write × ChangeKind)

variable [Formats]

def freePlacement (tenantId workloadId : String) (placement : Placement) : List Write :=
  [.remove .placements (asBytes placement.podId),
    put .ordinals (ordinalKey tenantId workloadId placement.role placement.ordinal)
      (⟨tenantId,workloadId,placement.role,placement.ordinal,none,none⟩ : OrdinalAssignment)]

def deleteWorkload (disk : Disk) (tenantId workloadId : String) : List Write :=
  let toRemove := (scanRecords Placement disk .placements).filter fun placement =>
    placement.tenantId = tenantId && placement.service = workloadId
  .remove .workloads (workloadKey tenantId workloadId) :: toRemove.flatMap (freePlacement tenantId workloadId)

def newReplicas (record : WorkloadSpecRecord) : ExtTreeMap String UInt32 compare :=
  match decodeWorkloadSpec record.specBytes with
  | .ok spec => spec.replicas
  | .error _ => ∅

def shouldRemove (replicas : ExtTreeMap String UInt32 compare) (placement : Placement) : Bool :=
  match replicas[placement.role]? with
  | some newCount => newCount ≤ placement.ordinal
  | none => true

def scaleWorkload (disk : Disk) (record : WorkloadSpecRecord) : List Write :=
  let toRemove := (scanRecords Placement disk .placements).filter fun placement =>
    placement.tenantId = record.tenantId && placement.service = record.workloadId &&
      shouldRemove (newReplicas record) placement
  put .workloads (workloadKey record.tenantId record.workloadId) record ::
    toRemove.flatMap (freePlacement record.tenantId record.workloadId)

/-- Read-modify-write of an EK record: nothing is written when the fingerprint is unknown. -/
def updateNodeEk (disk : Disk) (ekFingerprint : String) (change : NodeEkRecord → NodeEkRecord) : Applied := do
  match ← readRecord NodeEkRecord disk .nodeEks (asBytes ekFingerprint) with
  | some record => pure ([put .nodeEks (asBytes ekFingerprint) (change record)],.clusterMembership)
  | none => pure ([],.clusterMembership)

def setNodeTaints (nodeId : String) (taints : List NodeTaint) : List Write :=
  if taints.isEmpty then [.remove .nodeTaints (asBytes nodeId)] else [put .nodeTaints (asBytes nodeId) taints]

def removeNodeTaint (disk : Disk) (nodeId key effect : String) : Applied := do
  match ← readRecord (List NodeTaint) disk .nodeTaints (asBytes nodeId) with
  | none => pure ([],.schedulingUpdate)
  | some taints =>
    let retained := taints.filter fun taint => !(taint.key = key && taint.effect = effect)
    if retained.length = taints.length then pure ([],.schedulingUpdate)
    else pure (setNodeTaints nodeId retained,.schedulingUpdate)

def manifestKeyspace : String → Option Keyspace
  | "workloads" => some .workloads
  | "tenants" => some .tenants
  | "sag_rules" => some .sagRules
  | "secrets" => some .secrets
  | "node_pools" => some .nodePools
  | "dummy_ips" => some .dummyIps
  | "ordinals" => some .ordinals
  | "placements" => some .placements
  | _ => none

def applyManifests (updates : List ManifestUpdate) : List Write :=
  updates.filterMap fun update =>
    (manifestKeyspace update.targetKeyspace).map fun keyspace =>
      .insert keyspace update.targetKey update.newRecordBytes

def upsertWorkloadStatus (disk : Disk) (record : WorkloadStatusRecord) : List Write :=
  let prev : Option WorkloadStatusRecord :=
    (disk .workloadStatus)[asBytes record.podId]?.bind fun bytes => (fromBytes bytes).toOption
  let inViolation := record.started && (!record.policyEnforced || !record.routerConnected)
  let since :=
    if inViolation then
      match prev with
      | some p => if 0 < p.gateViolationSinceUnix then p.gateViolationSinceUnix else record.observedAtUnix
      | none => record.observedAtUnix
    else 0
  [put .workloadStatus (asBytes record.podId) { record with gateViolationSinceUnix := since }]

def blankNode (nodeId : String) (status : NodeStatus) (schedulable : Bool) : NodeRecord where
  nodeId := nodeId
  nodeKind := 0
  status := status
  schedulable := schedulable
  lastHeartbeat := 0
  registeredAt := 0
  capacityCpuMillicores := 0
  capacityMemoryBytes := 0
  failureDomain := ""

def setNodeSchedulable (disk : Disk) (nodeId : String) (schedulable : Bool) : Applied := do
  let record ← match ← readRecord NodeRecord disk .nodes (asBytes nodeId) with
    | some r => pure { r with
        schedulable := schedulable
        status := if schedulable && r.status = .cordoned then .active else r.status }
    | none => pure (blankNode nodeId (if schedulable then .active else .cordoned) schedulable)
  pure ([put .nodes (asBytes nodeId) record],.schedulingUpdate)

def nodeHeartbeat (disk : Disk) (nodeId : String) (lastHeartbeat : Int64) : Applied := do
  match ← readRecord NodeRecord disk .nodes (asBytes nodeId) with
  | some r => pure ([put .nodes (asBytes nodeId) { r with lastHeartbeat := lastHeartbeat }],.clusterMembership)
  | none => pure ([],.clusterMembership)

/-- Moves each delegation under the node's prefix to the revoked keyspace, by the key its fields give. -/
def revokeDelegationsOf (disk : Disk) (node : SpiffeId) : List Write :=
  let under := (disk .activeDelegations).toList.filter fun entry => (nodeDelegationPrefix node).isPrefixOf entry.1
  under.flatMap fun entry =>
    match fromBytes (α := DelegationRecord) entry.2 with
    | .ok record =>
      let key := compositeDelegationKey record.nodeId record.delegationId
      [.remove .activeDelegations key,.insert .revokedDelegations key entry.2]
    | .error _ => []

def evictNode (disk : Disk) (nodeId : String) (svidExpiresAtUnix : Int64) : Applied := do
  let nodeSpiffe ← parseSpiffe nodeId
  let record ← match ← readRecord NodeRecord disk .nodes (asBytes nodeId) with
    | some r => pure { r with status := .evicted, schedulable := false }
    | none => pure (blankNode nodeId .evicted false)
  let hosted := (scanRecords Placement disk .placements).filter fun placement => placement.nodeId = nodeSpiffe
  pure (put .nodes (asBytes nodeId) record :: revokeDelegationsOf disk nodeSpiffe ++
    hosted.map (fun placement => .remove .placements (asBytes placement.podId)) ++
    [put .revokedSvids (asBytes nodeId) (⟨nodeId,svidExpiresAtUnix⟩ : RevokedSvidRecord)],.eviction)

def pruneExpiredRevokedSvids (disk : Disk) (cutoffUnix : Int64) : List Write :=
  let toRemove := (scanRecords RevokedSvidRecord disk .revokedSvids).filter fun record =>
    record.expiresAtUnix < cutoffUnix
  toRemove.map fun record => .remove .revokedSvids (asBytes record.spiffeId)

def revokeDelegation (disk : Disk) (nodeId delegationId : String) : Applied := do
  let nodeSpiffe ← parseSpiffe nodeId
  let key := compositeDelegationKey nodeSpiffe delegationId
  match (disk .activeDelegations)[key]? with
  | some bytes =>
    pure ([.remove .activeDelegations key,.insert .revokedDelegations key bytes],.revokedDelegations)
  | none => pure ([],.revokedDelegations)

/-- The two ACL commands: decode or start empty, then parse the identity, then write back. -/
def updateSecretAcl (disk : Disk) (key spiffeId : String) (change : SecretAcl → SpiffeId → SecretAcl) : Applied := do
  let acl := (← readRecord SecretAcl disk .secrets (aclKey key)).getD SecretAcl.new
  let spiffe ← parseSpiffe spiffeId
  pure ([put .secrets (aclKey key) (change acl spiffe)],.secretRotation spiffeId)

def reassignPodId (disk : Disk) (tenantId service role : String) (ordinal : UInt32) (newPodId : String) : List Write :=
  let found := (scanRecords Placement disk .placements).find? fun placement =>
    placement.tenantId = tenantId && placement.service = service && placement.role = role &&
      placement.ordinal = ordinal
  match found with
  | some placement =>
    [.remove .placements (asBytes placement.podId),
      put .placements (asBytes newPodId) { placement with podId := newPodId },
      put .ordinals (ordinalKey tenantId service role ordinal)
        (⟨tenantId,service,role,ordinal,some newPodId,some (display placement.nodeId)⟩ : OrdinalAssignment)]
  | none => []

def applyCommand (disk : Disk) : FleetosCommand → Applied
  | .createTenant record block =>
    .ok ([put .tenants (asBytes record.tenantId) record,put .dummyIps (tenantBlockKey record.tenantId) block],
      .schedulingUpdate)
  | .deleteTenant tenantId => .ok ([.remove .tenants (asBytes tenantId)],.schedulingUpdate)
  | .submitWorkloadSpec record =>
    .ok ([put .workloads (workloadKey record.tenantId record.workloadId) record],.schedulingUpdate)
  | .deleteWorkload tenantId workloadId => .ok (deleteWorkload disk tenantId workloadId,.schedulingUpdate)
  | .scaleWorkload record => .ok (scaleWorkload disk record,.schedulingUpdate)
  | .resizeWorkload record =>
    .ok ([put .workloads (workloadKey record.tenantId record.workloadId) record],.schedulingUpdate)
  | .upsertVpaRecommendation record =>
    .ok ([put .vpaRecommendations (workloadKey record.tenantId record.workloadId) record],.schedulingUpdate)
  | .setTenantQuota record => .ok ([put .tenantQuotas (asBytes record.tenantId) record],.schedulingUpdate)
  | .registerControlAddress record =>
    .ok ([put .controlAddresses (u64be record.nodeId) record],.clusterMembership)
  | .upsertSvidVersion record =>
    .ok ([put .svids (asBytes record.spiffeId) record],.svidRotation record.spiffeId record.svidVersion)
  | .registerNodeEk record => .ok ([put .nodeEks (asBytes record.ekFingerprint) record],.clusterMembership)
  | .activateNodeEk ekFingerprint nodeId =>
    updateNodeEk disk ekFingerprint fun record => { record with state := .joined, nodeId := nodeId }
  | .setNodeTaints nodeId taints => .ok (setNodeTaints nodeId taints,.schedulingUpdate)
  | .removeNodeTaint nodeId key effect => removeNodeTaint disk nodeId key effect
  | .applyManifests updates => .ok (applyManifests updates,.schedulingUpdate)
  | .revokeNodeEk ekFingerprint => updateNodeEk disk ekFingerprint fun record => { record with state := .revoked }
  | .submitCronWorkload record checkpoint =>
    .ok ([put .workloads (asBytes ("cron:" ++ record.tenantId ++ ":" ++ record.cronWorkloadId)) record,
      put .cronCheckpoints (workloadKey checkpoint.tenantId checkpoint.cronWorkloadId) checkpoint],.schedulingUpdate)
  | .triggerCronWorkload workloadRecord checkpoint =>
    .ok ([put .workloads (workloadKey workloadRecord.tenantId workloadRecord.workloadId) workloadRecord,
      put .cronCheckpoints (workloadKey checkpoint.tenantId checkpoint.cronWorkloadId) checkpoint],.schedulingUpdate)
  | .upsertWorkloadStatus record => .ok (upsertWorkloadStatus disk record,.schedulingUpdate)
  | .mintJoinToken record => .ok ([put .joinTokens record.token record],.sagUpdate)
  | .consumeJoinToken token => .ok ([.remove .joinTokens token],.sagUpdate)
  | .setPcrPolicy record => .ok ([put .pcrPolicies (asBytes record.nodeId) record],.sagUpdate)
  | .registerNode record => .ok ([put .nodes (asBytes record.nodeId) record],.schedulingUpdate)
  | .setNodeSchedulable nodeId schedulable => setNodeSchedulable disk nodeId schedulable
  | .nodeHeartbeat nodeId lastHeartbeat => nodeHeartbeat disk nodeId lastHeartbeat
  | .evictNode nodeId svidExpiresAtUnix => evictNode disk nodeId svidExpiresAtUnix
  | .pruneExpiredRevokedSvids cutoffUnix => .ok (pruneExpiredRevokedSvids disk cutoffUnix,.sagUpdate)
  | .issueDelegation record =>
    .ok ([put .activeDelegations (compositeDelegationKey record.nodeId record.delegationId) record],.schedulingUpdate)
  | .revokeDelegation nodeId delegationId => revokeDelegation disk nodeId delegationId
  | .upsertSagRule record => .ok ([.insert .sagRules (asBytes record.ruleId) record.ruleBytes],.sagUpdate)
  | .deleteSagRule ruleId => .ok ([.remove .sagRules (asBytes ruleId)],.sagUpdate)
  | .allocateTenantBlock record => .ok ([put .dummyIps (tenantBlockKey record.tenantId) record],.dummyIpUpdate)
  | .allocateServiceAddress block address =>
    .ok ([put .dummyIps (tenantBlockKey block.tenantId) block,
      put .dummyIps (asBytes ("service:" ++ address.tenantId ++ ":" ++ address.service ++ ":" ++ address.role)) address],
      .dummyIpUpdate)
  | .storeSecret record targetSpiffeId =>
    .ok ([.insert .secrets (asBytes ("secret:" ++ record.key)) record.envelopeBytes,
      .insert .secrets (aclKey record.key) record.aclBytes],.secretRotation targetSpiffeId)
  | .grantSecretAccess _ key spiffeId => updateSecretAcl disk key spiffeId fun acl spiffe => acl.grant key spiffe
  | .revokeSecretAccess _ key spiffeId => updateSecretAcl disk key spiffeId fun acl spiffe => acl.revoke key spiffe
  | .recordOrdinalAssignment record =>
    .ok ([put .ordinals (ordinalKey record.tenantId record.service record.role record.ordinal) record],
      .schedulingUpdate)
  | .commitPlacement record => .ok ([put .placements (asBytes record.podId) record],.schedulingUpdate)
  | .removePlacement podId => .ok ([.remove .placements (asBytes podId)],.schedulingUpdate)
  | .reassignPodId tenantId service role ordinal newPodId =>
    .ok (reassignPodId disk tenantId service role ordinal newPodId,.schedulingUpdate)
  | .storeNodePool record => .ok ([put .nodePools (asBytes record.poolId) record],.schedulingUpdate)
  | .deleteNodePool poolId => .ok ([.remove .nodePools (asBytes poolId)],.schedulingUpdate)
  | .grantOperatorAccess record => .ok ([put .operatorGrants (asBytes record.grantId) record],.sagUpdate)
  | .revokeOperatorAccess grantId => .ok ([.remove .operatorGrants (asBytes grantId)],.sagUpdate)

end

def Keyspace.application : Keyspace → Bool
  | .version | .raftLog | .raftLogMeta | .raftState | .raftSnapshot | .auditLog | .trustBundles
  | .routerAssignments | .nonces | .nonceClaims | .svidGrants | .pendingActivations => false
  | _ => true

def SameApplication (left right : Disk) : Prop :=
  ∀ keyspace : Keyspace, keyspace.application = true → left keyspace = right keyspace

variable {left right : Disk} {keyspace : Keyspace} {keyspaces : List Keyspace} {writes : List Write}

theorem readRecord_congr {α : Type} [Postcard α] (same : left keyspace = right keyspace) (key : Bytes) :
    readRecord α left keyspace key = readRecord α right keyspace key := by
  simp only [readRecord,same]

theorem scanRecords_congr {α : Type} [Postcard α] (same : left keyspace = right keyspace) :
    scanRecords α left keyspace = scanRecords α right keyspace := by
  simp only [scanRecords,same]

theorem bind_ok {ε α β : Type} {first} {next : α → Except ε β} {result} (ok : (first >>= next) = .ok result) :
    ∃ value, first = .ok value ∧ next value = .ok result := by
  cases first with
  | error e => cases ok
  | ok value => exact ⟨value,rfl,ok⟩

def Within (keyspaces : List Keyspace) (writes : List Write) : Prop := ∀ write ∈ writes, write.table ∈ keyspaces

@[simp] theorem within_nil (keyspaces : List Keyspace) : Within keyspaces [] := by simp [Within]

@[simp] theorem within_cons (keyspaces : List Keyspace) (write : Write) (writes : List Write) :
    Within keyspaces (write::writes) ↔ write.table ∈ keyspaces ∧ Within keyspaces writes := by
  simp [Within]

@[simp] theorem within_append (keyspaces : List Keyspace) (first second : List Write) :
    Within keyspaces (first ++ second) ↔ Within keyspaces first ∧ Within keyspaces second := by
  simp [Within,or_imp,forall_and]

theorem within_flatMap {α : Type} (items : List α) (writes : α → List Write)
    (each : ∀ item, Within keyspaces (writes item)) : Within keyspaces (items.flatMap writes) := by
  intro write member
  obtain ⟨item,_,inside⟩ := mem_flatMap.mp member
  exact each item write inside

theorem Within.mono (within : Within first writes) (subset : first ⊆ second) :
    Within second writes := fun write member => subset (within write member)

theorem within_map {α : Type} (items : List α) (write : α → Write) (each : ∀ item, (write item).table ∈ keyspaces) :
    Within keyspaces (items.map write) := by
  intro w member
  obtain ⟨item,_,rfl⟩ := mem_map.mp member
  exact each item

section
variable [FleetosCore]

def FleetosCommand.touches : FleetosCommand → List Keyspace
  | .createTenant .. => [.tenants,.dummyIps]
  | .deleteTenant .. => [.tenants]
  | .submitWorkloadSpec .. | .resizeWorkload .. => [.workloads]
  | .deleteWorkload .. | .scaleWorkload .. => [.workloads,.placements,.ordinals]
  | .upsertVpaRecommendation .. => [.vpaRecommendations]
  | .setTenantQuota .. => [.tenantQuotas]
  | .submitCronWorkload .. | .triggerCronWorkload .. => [.workloads,.cronCheckpoints]
  | .upsertWorkloadStatus .. => [.workloadStatus]
  | .mintJoinToken .. | .consumeJoinToken .. => [.joinTokens]
  | .setPcrPolicy .. => [.pcrPolicies]
  | .registerNode .. | .setNodeSchedulable .. | .nodeHeartbeat .. => [.nodes]
  | .evictNode .. => [.nodes,.activeDelegations,.revokedDelegations,.placements,.revokedSvids]
  | .pruneExpiredRevokedSvids .. => [.revokedSvids]
  | .issueDelegation .. => [.activeDelegations]
  | .revokeDelegation .. => [.activeDelegations,.revokedDelegations]
  | .upsertSagRule .. | .deleteSagRule .. => [.sagRules]
  | .allocateTenantBlock .. | .allocateServiceAddress .. => [.dummyIps]
  | .storeSecret .. | .grantSecretAccess .. | .revokeSecretAccess .. => [.secrets]
  | .recordOrdinalAssignment .. => [.ordinals]
  | .commitPlacement .. | .removePlacement .. => [.placements]
  | .reassignPodId .. => [.placements,.ordinals]
  | .storeNodePool .. | .deleteNodePool .. => [.nodePools]
  | .registerControlAddress .. => [.controlAddresses]
  | .upsertSvidVersion .. => [.svids]
  | .grantOperatorAccess .. | .revokeOperatorAccess .. => [.operatorGrants]
  | .registerNodeEk .. | .activateNodeEk .. | .revokeNodeEk .. => [.nodeEks]
  | .setNodeTaints .. | .removeNodeTaint .. => [.nodeTaints]
  | .applyManifests .. =>
    [.workloads,.tenants,.sagRules,.secrets,.nodePools,.dummyIps,.ordinals,.placements]

export FleetosCommand (touches)

end

theorem within_applyManifests (updates : List ManifestUpdate) :
    Within [.workloads,.tenants,.sagRules,.secrets,.nodePools,.dummyIps,.ordinals,.placements]
      (applyManifests updates) := by
  intro write member
  obtain ⟨update,_,made⟩ := mem_filterMap.mp member
  obtain ⟨keyspace,named,rfl⟩ := map_eq_some_iff.mp made
  unfold manifestKeyspace at named
  split at named <;> cases named <;> simp

variable [FleetosCore]

theorem touches_application (cmd : FleetosCommand) : ∀ keyspace ∈ cmd.touches, keyspace.application = true := by
  cases cmd <;> simp [touches,Keyspace.application]

variable [Formats]

theorem applyCommand_congr (same : SameApplication left right) (cmd : FleetosCommand) :
    applyCommand left cmd = applyCommand right cmd := by
  have nodes := same .nodes rfl
  have nodeEks := same .nodeEks rfl
  have nodeTaints := same .nodeTaints rfl
  have placements := same .placements rfl
  have secrets := same .secrets rfl
  have workloadStatus := same .workloadStatus rfl
  have revokedSvids := same .revokedSvids rfl
  have activeDelegations := same .activeDelegations rfl
  cases cmd
  case deleteWorkload => simp only [applyCommand,deleteWorkload,scanRecords_congr placements]
  case scaleWorkload => simp only [applyCommand,scaleWorkload,scanRecords_congr placements]
  case reassignPodId => simp only [applyCommand,reassignPodId,scanRecords_congr placements]
  case activateNodeEk => simp only [applyCommand,updateNodeEk,readRecord_congr nodeEks]
  case revokeNodeEk => simp only [applyCommand,updateNodeEk,readRecord_congr nodeEks]
  case removeNodeTaint => simp only [applyCommand,removeNodeTaint,readRecord_congr nodeTaints]
  case upsertWorkloadStatus => simp only [applyCommand,upsertWorkloadStatus,workloadStatus]
  case setNodeSchedulable => simp only [applyCommand,setNodeSchedulable,readRecord_congr nodes]
  case nodeHeartbeat => simp only [applyCommand,nodeHeartbeat,readRecord_congr nodes]
  case evictNode =>
    simp only [applyCommand,evictNode,revokeDelegationsOf,readRecord_congr nodes,scanRecords_congr placements,
      activeDelegations]
  case pruneExpiredRevokedSvids =>
    simp only [applyCommand,pruneExpiredRevokedSvids,scanRecords_congr revokedSvids]
  case revokeDelegation => simp only [applyCommand,revokeDelegation,activeDelegations]
  case grantSecretAccess => simp only [applyCommand,updateSecretAcl,readRecord_congr secrets]
  case revokeSecretAccess => simp only [applyCommand,updateSecretAcl,readRecord_congr secrets]
  all_goals rfl

theorem within_freed (tenantId workloadId : String) (placements : List Placement) :
    Within [.placements,.ordinals] (placements.flatMap (freePlacement tenantId workloadId)) :=
  within_flatMap _ _ fun _ => by simp [freePlacement]

theorem within_updateNodeEk (disk : Disk) (fingerprint : String) (change : NodeEkRecord → NodeEkRecord)
    (writes : List Write) (kind : ChangeKind) (ok : updateNodeEk disk fingerprint change = .ok (writes,kind)) :
    Within [.nodeEks] writes := by
  obtain ⟨found,_,ok⟩ := bind_ok ok
  cases found with
  | none => cases ok; simp
  | some record => cases ok; simp

theorem within_setNodeTaints (nodeId : String) (taints : List NodeTaint) :
    Within [.nodeTaints] (setNodeTaints nodeId taints) := by
  unfold setNodeTaints
  split <;> simp

theorem within_removeNodeTaint (disk : Disk) (nodeId key effect : String) (writes : List Write)
    (kind : ChangeKind) (ok : removeNodeTaint disk nodeId key effect = .ok (writes,kind)) :
    Within [.nodeTaints] writes := by
  obtain ⟨found,_,ok⟩ := bind_ok ok
  cases found with
  | none => cases ok; simp
  | some taints =>
    simp only at ok
    split at ok
    · cases ok; simp
    · cases ok; exact within_setNodeTaints _ _

theorem within_evictNode (disk : Disk) (nodeId : String) (expires : Int64) (writes : List Write)
    (kind : ChangeKind) (ok : evictNode disk nodeId expires = .ok (writes,kind)) :
    Within [.nodes,.activeDelegations,.revokedDelegations,.placements,.revokedSvids] writes := by
  obtain ⟨node,_,ok⟩ := bind_ok ok
  obtain ⟨found,_,ok⟩ := bind_ok ok
  have revoked : Within [.nodes,.activeDelegations,.revokedDelegations,.placements,.revokedSvids]
      (revokeDelegationsOf disk node) := by
    apply within_flatMap
    intro entry
    split <;> simp
  have unhosted : ∀ placements : List Placement,
      Within [.nodes,.activeDelegations,.revokedDelegations,.placements,.revokedSvids]
        (placements.map fun placement => .remove .placements (asBytes placement.podId)) := by
    intro placements
    exact within_map _ _ (fun _ => by simp)
  cases found with
  | none =>
    cases ok
    simpa [revoked] using unhosted _
  | some record =>
    cases ok
    simpa [revoked] using unhosted _

theorem applyCommand_within (disk : Disk) (cmd : FleetosCommand) (writes : List Write) (kind : ChangeKind)
    (ok : applyCommand disk cmd = .ok (writes,kind)) : Within cmd.touches writes := by
  cases cmd
  case deleteWorkload =>
    cases ok
    exact (within_cons _ _ _).mpr ⟨by simp [touches],
      (within_freed _ _ _).mono (by simp [touches])⟩
  case scaleWorkload =>
    cases ok
    exact (within_cons _ _ _).mpr ⟨by simp [touches],
      (within_freed _ _ _).mono (by simp [touches])⟩
  case activateNodeEk => exact within_updateNodeEk _ _ _ _ _ ok
  case revokeNodeEk => exact within_updateNodeEk _ _ _ _ _ ok
  case setNodeTaints => cases ok; exact within_setNodeTaints _ _
  case removeNodeTaint => exact within_removeNodeTaint _ _ _ _ _ _ ok
  case applyManifests => cases ok; exact within_applyManifests _
  case setNodeSchedulable =>
    obtain ⟨found,_,ok⟩ := bind_ok ok
    cases found <;> cases ok <;> simp [touches]
  case nodeHeartbeat =>
    obtain ⟨found,_,ok⟩ := bind_ok ok
    cases found <;> cases ok <;> simp [touches]
  case evictNode => exact within_evictNode _ _ _ _ _ ok
  case pruneExpiredRevokedSvids =>
    cases ok
    exact within_map _ _ (fun _ => by simp [touches])
  case revokeDelegation =>
    obtain ⟨node,_,ok⟩ := bind_ok ok
    simp only at ok
    split at ok <;> cases ok <;> simp [touches]
  case grantSecretAccess =>
    obtain ⟨found,_,ok⟩ := bind_ok ok
    obtain ⟨spiffe,_,ok⟩ := bind_ok ok
    cases ok
    simp [touches]
  case revokeSecretAccess =>
    obtain ⟨found,_,ok⟩ := bind_ok ok
    obtain ⟨spiffe,_,ok⟩ := bind_ok ok
    cases ok
    simp [touches]
  case reassignPodId =>
    cases ok
    unfold reassignPodId
    simp only
    split <;> simp [touches]
  all_goals
    cases ok
    simp [touches,upsertWorkloadStatus]

theorem applyCommand_frame (ok : applyCommand disk cmd = .ok (writes,kind)) (keyspace : Keyspace)
    (untouched : keyspace ∉ cmd.touches) :
    KeyValue.commit disk writes keyspace = disk keyspace := by
  apply KeyValue.commit_frame
  intro write member same
  exact untouched (same ▸ applyCommand_within disk cmd writes kind ok write member)

end FleetosControl
