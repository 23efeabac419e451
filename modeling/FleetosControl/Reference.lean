import FleetosControl.Admin.Service

/-! The postcard format itself, for every stored type. The assumptions on encodings can be met
together, and concrete runs are evaluated over it. -/
namespace FleetosControl.Reference
open Wire Wire.Codec

abbrev Identity := {text : String // (asBytes "spiffe://").isPrefixOf (asBytes text) = true}

-- The segment before the name in spiffe://domain/ns/namespace/kind/name.
def kindSegment (text : Bytes) : Option Bytes := (text.splitOn 47)[5]?

def kindOf (text : String) : IdKind :=
  match [("node",IdKind.node),("router",.router),("gateway",.gateway),("control",.control),("ctrl",.ctrl),
      ("operator",.operator)].find? fun named => some (asBytes named.1) = kindSegment (asBytes text) with
  | some named => named.2
  | none => .sa

def i32 : Codec Int32 := i64.iso Int32.toInt64 Int64.toInt32 Int32.toInt32_toInt64

def resourceRequirements : Codec ResourceRequirements :=
  (u32.pair (u32.pair u32)).iso (fun ⟨a,b,c⟩ => (a,b,c)) (fun (a,b,c) => ⟨a,b,c⟩)
    (fun _ => rfl)

def toleration : Codec Toleration :=
  (string.pair (string.pair (string.pair (string.pair i64)))).iso
    (fun ⟨a,b,c,d,e⟩ => (a,b,c,d,e)) (fun (a,b,c,d,e) => ⟨a,b,c,d,e⟩) (fun _ => rfl)

def initContainer : Codec InitContainer :=
  (string.pair (string.pair bytes)).iso (fun ⟨a,b,c⟩ => (a,b,c)) (fun (a,b,c) => ⟨a,b,c⟩) (fun _ => rfl)

def podSpec : Codec PodSpec :=
  (string.pair (string.pair (string.pair (string.pair ((option u32).pair ((option string).pair
    ((option resourceRequirements).pair ((sortedMap string string).pair ((sortedMap string string).pair
      (i32.pair ((list toleration).pair ((list initContainer).pair bytes)))))))))))).iso
    (fun ⟨a,b,c,d,e,f,g,h,i,j,k,l,m⟩ => (a,b,c,d,e,f,g,h,i,j,k,l,m))
    (fun (a,b,c,d,e,f,g,h,i,j,k,l,m) => ⟨a,b,c,d,e,f,g,h,i,j,k,l,m⟩)
    (fun _ => rfl)

def autoscalingPolicy : Codec AutoscalingPolicy :=
  (bool.pair (u32.pair (u64.pair (u64.pair (u64.pair (u32.pair (u32.pair u32))))))).iso
    (fun ⟨a,b,c,d,e,f,g,h⟩ => (a,b,c,d,e,f,g,h)) (fun (a,b,c,d,e,f,g,h) => ⟨a,b,c,d,e,f,g,h⟩) (fun _ => rfl)

def verticalAutoscalingPolicy : Codec VerticalAutoscalingPolicy :=
  (bool.pair (i32.pair (u32.pair (u32.pair (u32.pair (u32.pair (u64.pair (u64.pair (u32.pair u32))))))))).iso
    (fun ⟨a,b,c,d,e,f,g,h,i,j⟩ => (a,b,c,d,e,f,g,h,i,j)) (fun (a,b,c,d,e,f,g,h,i,j) => ⟨a,b,c,d,e,f,g,h,i,j⟩) (fun _ => rfl)

def budgetValue : Codec BudgetValue :=
  (bool.pair u32).iso (fun | .count pods => (false,pods) | .percent share => (true,share))
    (fun | (false,pods) => .count pods | (true,share) => .percent share) (by rintro (_ | _) <;> rfl)

def budgetPolicy : Codec BudgetPolicy :=
  (bool.pair (option budgetValue)).iso (fun | .minAvailable value => (false,value) | .maxUnavailable value => (true,value))
    (fun | (false,value) => .minAvailable value | (true,value) => .maxUnavailable value) (by rintro (_ | _) <;> rfl)

def disruptionBudget : Codec DisruptionBudget := (option budgetPolicy).iso (·.policy) (⟨·⟩) (fun _ => rfl)

def workloadSpec : Codec WorkloadSpec :=
  (string.pair (string.pair (string.pair ((sortedMap string u32).pair ((option podSpec).pair (i32.pair
    ((option bytes).pair ((option autoscalingPolicy).pair ((option verticalAutoscalingPolicy).pair
      ((sortedMap string disruptionBudget).pair bytes)))))))))).iso
    (fun ⟨a,b,c,d,e,f,g,h,i,j,k⟩ => (a,b,c,d,e,f,g,h,i,j,k)) (fun (a,b,c,d,e,f,g,h,i,j,k) => ⟨a,b,c,d,e,f,g,h,i,j,k⟩)
    (fun _ => rfl)

/-- Not protobuf's layout: a tag that starts no record, then the fields. The empty message is the default one. -/
def decodeMessage {α : Type} (codec : Codec α) (default : α) (bytes : Bytes) : Except String α :=
  match bytes with
  | [] => .ok default
  | 1::194::128::fields =>
    match codec.decode fields with
    | some (message,[]) => .ok message
    | _ => .error "buffer underflow"
  | _ => .error "invalid tag value"

def encodeMessage {α : Type} (codec : Codec α) (message : α) : Bytes := 1::194::128::codec.encode message

theorem decodeMessage_encodeMessage {α : Type} (codec : Codec α) (default message : α) :
    decodeMessage codec default (encodeMessage codec message) = .ok message := by
  have read := codec.decode_encode message []
  rw [List.append_nil] at read
  simp [decodeMessage,encodeMessage,read]

instance core : FleetosCore where
  SpiffeId := Identity
  decEq := inferInstance
  kind id := kindOf id.1
  parse text :=
    if scheme : (asBytes "spiffe://").isPrefixOf (asBytes text) = true then .ok ⟨text,scheme⟩
    else .error "invalid scheme"
  display id := id.1
  parse_display id := by simp [id.2]
  decodeWorkloadSpec := decodeMessage workloadSpec {}

instance messages : WorkloadMessages where
  encodeWorkloadSpec := encodeMessage workloadSpec
  decode_encode := decodeMessage_encodeMessage workloadSpec {}

@[reducible] def postcard {α : Type} (codec : Codec α) : Postcard α where
  toAllocvec := codec.encode
  -- `from_bytes` ignores what follows the value
  fromBytes bytes :=
    match codec.decode bytes with
    | some (value,_) => .ok value
    | none => .error "Hit the end of buffer, expected more data"
  fromBytes_toAllocvec value := by
    have read := codec.decode_encode value []
    rw [List.append_nil] at read
    simp [read]

def nodeStatus : Codec NodeStatus :=
  enumeration (fun | .active => 0 | .cordoned => 1 | .evicted => 2)
    (fun | 0 => some .active | 1 => some .cordoned | 2 => some .evicted | _ => none) (by rintro (_ | _ | _) <;> rfl)

def nodeRecord : Codec NodeRecord :=
  (string.pair (byte.pair (nodeStatus.pair (bool.pair (i64.pair (i64.pair (u64.pair (u64.pair string)))))))).iso
    (fun ⟨a,b,c,d,e,f,g,h,i⟩ => (a,b,c,d,e,f,g,h,i)) (fun (a,b,c,d,e,f,g,h,i) => ⟨a,b,c,d,e,f,g,h,i⟩) (fun _ => rfl)

def tenantRecord : Codec TenantRecord :=
  (string.pair (i64.pair bytes)).iso (fun ⟨a,b,c⟩ => (a,b,c)) (fun (a,b,c) => ⟨a,b,c⟩) (fun _ => rfl)

def workloadSpecRecord : Codec WorkloadSpecRecord :=
  (string.pair (string.pair (bytes.pair bytes))).iso
    (fun ⟨a,b,c,d⟩ => (a,b,c,d)) (fun (a,b,c,d) => ⟨a,b,c,d⟩) (fun _ => rfl)

def cronWorkloadRecord : Codec CronWorkloadRecord :=
  (string.pair (string.pair (string.pair bytes))).iso
    (fun ⟨a,b,c,d⟩ => (a,b,c,d)) (fun (a,b,c,d) => ⟨a,b,c,d⟩) (fun _ => rfl)

def sagRuleRecord : Codec SagRuleRecord :=
  (string.pair (bytes.pair bytes)).iso (fun ⟨a,b,c⟩ => (a,b,c)) (fun (a,b,c) => ⟨a,b,c⟩) (fun _ => rfl)

def secretRecord : Codec SecretRecord :=
  (string.pair (bytes.pair (bytes.pair bytes))).iso (fun ⟨a,b,c,d⟩ => (a,b,c,d)) (fun (a,b,c,d) => ⟨a,b,c,d⟩) (fun _ => rfl)

def revokedSvidRecord : Codec RevokedSvidRecord :=
  (string.pair i64).iso (fun ⟨a,b⟩ => (a,b)) (fun (a,b) => ⟨a,b⟩) (fun _ => rfl)

def auditContext : Codec AuditContext :=
  (string.pair (string.pair (string.pair u64))).iso (fun ⟨a,b,c,d⟩ => (a,b,c,d)) (fun (a,b,c,d) => ⟨a,b,c,d⟩) (fun _ => rfl)

def auditRecord : Codec AuditRecord :=
  (u64.pair (string.pair (string.pair (string.pair (string.pair u64))))).iso
    (fun ⟨a,b,c,d,e,f⟩ => (a,b,c,d,e,f)) (fun (a,b,c,d,e,f) => ⟨a,b,c,d,e,f⟩)
    (fun _ => rfl)

def cronCheckpointRecord : Codec CronCheckpointRecord :=
  (string.pair (string.pair i64)).iso (fun ⟨a,b,c⟩ => (a,b,c)) (fun (a,b,c) => ⟨a,b,c⟩) (fun _ => rfl)

def operatorAccessGrantRecord : Codec OperatorAccessGrantRecord :=
  (string.pair (string.pair (string.pair (u64.pair (u64.pair (bool.pair (bool.pair (list string)))))))).iso
    (fun ⟨a,b,c,d,e,f,g,h⟩ => (a,b,c,d,e,f,g,h)) (fun (a,b,c,d,e,f,g,h) => ⟨a,b,c,d,e,f,g,h⟩) (fun _ => rfl)

def workloadStatusRecord : Codec WorkloadStatusRecord :=
  (string.pair (string.pair (string.pair (bool.pair (bool.pair (bool.pair (bool.pair (u32.pair (i64.pair
    (bool.pair i64)))))))))).iso
    (fun ⟨a,b,c,d,e,f,g,h,i,j,k⟩ => (a,b,c,d,e,f,g,h,i,j,k)) (fun (a,b,c,d,e,f,g,h,i,j,k) => ⟨a,b,c,d,e,f,g,h,i,j,k⟩)
    (fun _ => rfl)

def tenantQuotaRecord : Codec TenantQuotaRecord :=
  (string.pair (u64.pair (u64.pair u32))).iso
    (fun ⟨a,b,c,d⟩ => (a,b,c,d)) (fun (a,b,c,d) => ⟨a,b,c,d⟩) (fun _ => rfl)

def controlNodeAddressRecord : Codec ControlNodeAddressRecord :=
  (u64.pair (string.pair string)).iso (fun ⟨a,b,c⟩ => (a,b,c)) (fun (a,b,c) => ⟨a,b,c⟩) (fun _ => rfl)

def ekRegistrationState : Codec EkRegistrationState :=
  enumeration (fun | .pending => 0 | .joined => 1 | .revoked => 2)
    (fun | 0 => some .pending | 1 => some .joined | 2 => some .revoked | _ => none) (by rintro (_ | _ | _) <;> rfl)

def nodeEkRecord : Codec NodeEkRecord :=
  (string.pair (bytes.pair (bytes.pair (string.pair (i64.pair ((option i64).pair ekRegistrationState)))))).iso
    (fun ⟨a,b,c,d,e,f,g⟩ => (a,b,c,d,e,f,g)) (fun (a,b,c,d,e,f,g) => ⟨a,b,c,d,e,f,g⟩) (fun _ => rfl)

def nodeTaint : Codec NodeTaint :=
  (string.pair (string.pair (string.pair i64))).iso (fun ⟨a,b,c,d⟩ => (a,b,c,d)) (fun (a,b,c,d) => ⟨a,b,c,d⟩) (fun _ => rfl)

def vpaRecommendationRecord : Codec VpaRecommendationRecord :=
  (string.pair (string.pair (u32.pair (u32.pair (u32.pair (u32.pair (i64.pair string))))))).iso
    (fun ⟨a,b,c,d,e,f,g,h⟩ => (a,b,c,d,e,f,g,h)) (fun (a,b,c,d,e,f,g,h) => ⟨a,b,c,d,e,f,g,h⟩) (fun _ => rfl)

def nodeKind : Codec NodeKind :=
  enumeration (fun | .agent => 0 | .router => 1 | .gateway => 2 | .control => 3 | .fleetctlProxy => 4)
    (fun
      | 0 => some .agent
      | 1 => some .router
      | 2 => some .gateway
      | 3 => some .control
      | 4 => some .fleetctlProxy
      | _ => none) (by rintro (_ | _ | _ | _ | _) <;> rfl)

def joinTokenRecord : Codec JoinTokenRecord :=
  (bytes.pair (nodeKind.pair (i64.pair ((option i64).pair bool)))).iso
    (fun ⟨a,b,c,d,e⟩ => (a,b,c,d,e)) (fun (a,b,c,d,e) => ⟨a,b,c,d,e⟩) (fun _ => rfl)

def pcrValue : Codec PcrValue :=
  (byte.pair (u16.pair bytes)).iso (fun ⟨a,b,c⟩ => (a,b,c)) (fun (a,b,c) => ⟨a,b,c⟩) (fun _ => rfl)

def pcrPolicy : Codec PcrPolicy :=
  (string.pair ((list pcrValue).pair (i64.pair bool))).iso (fun ⟨a,b,c,d⟩ => (a,b,c,d)) (fun (a,b,c,d) => ⟨a,b,c,d⟩)
    (fun _ => rfl)

def tenantBlock : Codec TenantBlock :=
  (string.pair (u32.pair (byte.pair u32))).iso (fun ⟨a,b,c,d⟩ => (a,b,c,d)) (fun (a,b,c,d) => ⟨a,b,c,d⟩) (fun _ => rfl)

def serviceAddress : Codec ServiceAddress :=
  (string.pair (string.pair (string.pair u32))).iso (fun ⟨a,b,c,d⟩ => (a,b,c,d)) (fun (a,b,c,d) => ⟨a,b,c,d⟩) (fun _ => rfl)

def ordinalAssignment : Codec OrdinalAssignment :=
  (string.pair (string.pair (string.pair (u32.pair ((option string).pair (option string)))))).iso
    (fun ⟨a,b,c,d,e,f⟩ => (a,b,c,d,e,f)) (fun (a,b,c,d,e,f) => ⟨a,b,c,d,e,f⟩) (fun _ => rfl)

def nodePoolRecord : Codec NodePoolRecord :=
  (string.pair (nodeKind.pair (u32.pair (u32.pair (u32.pair (u32.pair (string.pair bytes))))))).iso
    (fun ⟨a,b,c,d,e,f,g,h⟩ => (a,b,c,d,e,f,g,h)) (fun (a,b,c,d,e,f,g,h) => ⟨a,b,c,d,e,f,g,h⟩) (fun _ => rfl)

def svidRecord : Codec SvidRecord :=
  (string.pair (u64.pair (i64.pair bytes))).iso
    (fun ⟨a,b,c,d⟩ => (a,b,c,d)) (fun (a,b,c,d) => ⟨a,b,c,d⟩) (fun _ => rfl)

def manifestUpdate : Codec ManifestUpdate :=
  (string.pair (bytes.pair bytes)).iso (fun ⟨a,b,c⟩ => (a,b,c)) (fun (a,b,c) => ⟨a,b,c⟩) (fun _ => rfl)

def secretAcl : Codec SecretAcl :=
  (sortedMap string (sortedSet string)).iso (fun acl => acl.entries) (fun entries => ⟨entries⟩) (fun _ => rfl)

def identity : Codec Identity :=
  string.retract (fun id => id.1) (fun text => (core.parse text).toOption) (by
    intro id
    exact congrArg Except.toOption (core.parse_display id))

def delegationRecord : Codec DelegationRecord :=
  (string.pair (identity.pair (identity.pair ((option u32).pair (i64.pair (i64.pair i64)))))).iso
    (fun ⟨a,b,c,d,e,f,g⟩ => (a,b,c,d,e,f,g)) (fun (a,b,c,d,e,f,g) => ⟨a,b,c,d,e,f,g⟩) (fun _ => rfl)

def placement : Codec Placement :=
  let resources : Codec ResourceSpec := (u64.pair u64).iso (fun ⟨a,b⟩ => (a,b)) (fun (a,b) => ⟨a,b⟩) (fun _ => rfl)
  (string.pair (string.pair (string.pair (string.pair (u32.pair (identity.pair resources)))))).iso
    (fun ⟨a,b,c,d,e,f,g⟩ => (a,b,c,d,e,f,g)) (fun (a,b,c,d,e,f,g) => ⟨a,b,c,d,e,f,g⟩) (fun _ => rfl)

def logId : Codec LogId :=
  (u64.pair (u64.pair u64)).iso (fun id => (id.leaderId.term,id.leaderId.nodeId,id.index))
    (fun (term,nodeId,index) => ⟨⟨term,nodeId⟩,index⟩) (fun _ => rfl)

def membership : Codec Membership :=
  let basicNode : Codec BasicNode := string.iso (fun node => node.addr) (fun addr => ⟨addr⟩) (fun _ => rfl)
  ((list (list u64)).pair (list (u64.pair basicNode))).iso (fun ⟨a,b⟩ => (a,b)) (fun (a,b) => ⟨a,b⟩) (fun _ => rfl)

def storedMembership : Codec StoredMembership :=
  ((option logId).pair membership).iso (fun ⟨a,b⟩ => (a,b)) (fun (a,b) => ⟨a,b⟩) (fun _ => rfl)

def snapshotMeta : Codec SnapshotMeta :=
  ((option logId).pair (storedMembership.pair string)).iso (fun ⟨a,b,c⟩ => (a,b,c)) (fun (a,b,c) => ⟨a,b,c⟩) (fun _ => rfl)

def applicationSnapshot : Codec ApplicationSnapshot :=
  (list (string.pair (list (bytes.pair bytes)))).iso (fun s => s.keyspaces) (fun keyspaces => ⟨keyspaces⟩)
    (fun _ => rfl)

def commandIndex : FleetosCommand → Nat
  | .createTenant .. => 0
  | .deleteTenant .. => 1
  | .submitWorkloadSpec .. => 2
  | .deleteWorkload .. => 3
  | .scaleWorkload .. => 4
  | .resizeWorkload .. => 5
  | .upsertVpaRecommendation .. => 6
  | .setTenantQuota .. => 7
  | .submitCronWorkload .. => 8
  | .triggerCronWorkload .. => 9
  | .upsertWorkloadStatus .. => 10
  | .mintJoinToken .. => 11
  | .consumeJoinToken .. => 12
  | .setPcrPolicy .. => 13
  | .registerNode .. => 14
  | .evictNode .. => 15
  | .pruneExpiredRevokedSvids .. => 16
  | .setNodeSchedulable .. => 17
  | .nodeHeartbeat .. => 18
  | .issueDelegation .. => 19
  | .revokeDelegation .. => 20
  | .upsertSagRule .. => 21
  | .deleteSagRule .. => 22
  | .allocateTenantBlock .. => 23
  | .allocateServiceAddress .. => 24
  | .storeSecret .. => 25
  | .grantSecretAccess .. => 26
  | .revokeSecretAccess .. => 27
  | .recordOrdinalAssignment .. => 28
  | .commitPlacement .. => 29
  | .removePlacement .. => 30
  | .reassignPodId .. => 31
  | .storeNodePool .. => 32
  | .deleteNodePool .. => 33
  | .registerControlAddress .. => 34
  | .upsertSvidVersion .. => 35
  | .grantOperatorAccess .. => 36
  | .revokeOperatorAccess .. => 37
  | .registerNodeEk .. => 38
  | .activateNodeEk .. => 39
  | .revokeNodeEk .. => 40
  | .setNodeTaints .. => 41
  | .removeNodeTaint .. => 42
  | .applyManifests .. => 43

def commandPayload : FleetosCommand → Bytes
  | .createTenant a b => (tenantRecord.pair tenantBlock).encode (a,b)
  | .deleteTenant a => string.encode a
  | .submitWorkloadSpec a => workloadSpecRecord.encode a
  | .deleteWorkload a b => (string.pair string).encode (a,b)
  | .scaleWorkload a => workloadSpecRecord.encode a
  | .resizeWorkload a => workloadSpecRecord.encode a
  | .upsertVpaRecommendation a => vpaRecommendationRecord.encode a
  | .setTenantQuota a => tenantQuotaRecord.encode a
  | .submitCronWorkload a b => (cronWorkloadRecord.pair cronCheckpointRecord).encode (a,b)
  | .triggerCronWorkload a b => (workloadSpecRecord.pair cronCheckpointRecord).encode (a,b)
  | .upsertWorkloadStatus a => workloadStatusRecord.encode a
  | .mintJoinToken a => joinTokenRecord.encode a
  | .consumeJoinToken a => bytes.encode a
  | .setPcrPolicy a => pcrPolicy.encode a
  | .registerNode a => nodeRecord.encode a
  | .evictNode a b => (string.pair i64).encode (a,b)
  | .pruneExpiredRevokedSvids a => i64.encode a
  | .setNodeSchedulable a b => (string.pair bool).encode (a,b)
  | .nodeHeartbeat a b => (string.pair i64).encode (a,b)
  | .issueDelegation a => delegationRecord.encode a
  | .revokeDelegation a b => (string.pair string).encode (a,b)
  | .upsertSagRule a => sagRuleRecord.encode a
  | .deleteSagRule a => string.encode a
  | .allocateTenantBlock a => tenantBlock.encode a
  | .allocateServiceAddress a b => (tenantBlock.pair serviceAddress).encode (a,b)
  | .storeSecret a b => (secretRecord.pair string).encode (a,b)
  | .grantSecretAccess a b c => (string.pair (string.pair string)).encode (a,b,c)
  | .revokeSecretAccess a b c => (string.pair (string.pair string)).encode (a,b,c)
  | .recordOrdinalAssignment a => ordinalAssignment.encode a
  | .commitPlacement a => placement.encode a
  | .removePlacement a => string.encode a
  | .reassignPodId a b c d e => (string.pair (string.pair (string.pair (u32.pair string)))).encode (a,b,c,d,e)
  | .storeNodePool a => nodePoolRecord.encode a
  | .deleteNodePool a => string.encode a
  | .registerControlAddress a => controlNodeAddressRecord.encode a
  | .upsertSvidVersion a => svidRecord.encode a
  | .grantOperatorAccess a => operatorAccessGrantRecord.encode a
  | .revokeOperatorAccess a => string.encode a
  | .registerNodeEk a => nodeEkRecord.encode a
  | .activateNodeEk a b => (string.pair string).encode (a,b)
  | .revokeNodeEk a => string.encode a
  | .setNodeTaints a b => (string.pair (list nodeTaint)).encode (a,b)
  | .removeNodeTaint a b c => (string.pair (string.pair string)).encode (a,b,c)
  | .applyManifests a => (list manifestUpdate).encode a

def commandRead : Nat → Bytes → Option (FleetosCommand × Bytes)
  | 0, rest => (tenantRecord.pair tenantBlock).variant (fun p => .createTenant p.1 p.2) rest
  | 1, rest => string.variant .deleteTenant rest
  | 2, rest => workloadSpecRecord.variant .submitWorkloadSpec rest
  | 3, rest => (string.pair string).variant (fun p => .deleteWorkload p.1 p.2) rest
  | 4, rest => workloadSpecRecord.variant .scaleWorkload rest
  | 5, rest => workloadSpecRecord.variant .resizeWorkload rest
  | 6, rest => vpaRecommendationRecord.variant .upsertVpaRecommendation rest
  | 7, rest => tenantQuotaRecord.variant .setTenantQuota rest
  | 8, rest => (cronWorkloadRecord.pair cronCheckpointRecord).variant (fun p => .submitCronWorkload p.1 p.2) rest
  | 9, rest => (workloadSpecRecord.pair cronCheckpointRecord).variant (fun p => .triggerCronWorkload p.1 p.2) rest
  | 10, rest => workloadStatusRecord.variant .upsertWorkloadStatus rest
  | 11, rest => joinTokenRecord.variant .mintJoinToken rest
  | 12, rest => bytes.variant .consumeJoinToken rest
  | 13, rest => pcrPolicy.variant .setPcrPolicy rest
  | 14, rest => nodeRecord.variant .registerNode rest
  | 15, rest => (string.pair i64).variant (fun p => .evictNode p.1 p.2) rest
  | 16, rest => i64.variant .pruneExpiredRevokedSvids rest
  | 17, rest => (string.pair bool).variant (fun p => .setNodeSchedulable p.1 p.2) rest
  | 18, rest => (string.pair i64).variant (fun p => .nodeHeartbeat p.1 p.2) rest
  | 19, rest => delegationRecord.variant .issueDelegation rest
  | 20, rest => (string.pair string).variant (fun p => .revokeDelegation p.1 p.2) rest
  | 21, rest => sagRuleRecord.variant .upsertSagRule rest
  | 22, rest => string.variant .deleteSagRule rest
  | 23, rest => tenantBlock.variant .allocateTenantBlock rest
  | 24, rest => (tenantBlock.pair serviceAddress).variant (fun p => .allocateServiceAddress p.1 p.2) rest
  | 25, rest => (secretRecord.pair string).variant (fun p => .storeSecret p.1 p.2) rest
  | 26, rest => (string.pair (string.pair string)).variant (fun p => .grantSecretAccess p.1 p.2.1 p.2.2) rest
  | 27, rest => (string.pair (string.pair string)).variant (fun p => .revokeSecretAccess p.1 p.2.1 p.2.2) rest
  | 28, rest => ordinalAssignment.variant .recordOrdinalAssignment rest
  | 29, rest => placement.variant .commitPlacement rest
  | 30, rest => string.variant .removePlacement rest
  | 31, rest =>
    (string.pair (string.pair (string.pair (u32.pair string)))).variant
      (fun p => .reassignPodId p.1 p.2.1 p.2.2.1 p.2.2.2.1 p.2.2.2.2) rest
  | 32, rest => nodePoolRecord.variant .storeNodePool rest
  | 33, rest => string.variant .deleteNodePool rest
  | 34, rest => controlNodeAddressRecord.variant .registerControlAddress rest
  | 35, rest => svidRecord.variant .upsertSvidVersion rest
  | 36, rest => operatorAccessGrantRecord.variant .grantOperatorAccess rest
  | 37, rest => string.variant .revokeOperatorAccess rest
  | 38, rest => nodeEkRecord.variant .registerNodeEk rest
  | 39, rest => (string.pair string).variant (fun p => .activateNodeEk p.1 p.2) rest
  | 40, rest => string.variant .revokeNodeEk rest
  | 41, rest => (string.pair (list nodeTaint)).variant (fun p => .setNodeTaints p.1 p.2) rest
  | 42, rest => (string.pair (string.pair string)).variant (fun p => .removeNodeTaint p.1 p.2.1 p.2.2) rest
  | 43, rest => (list manifestUpdate).variant .applyManifests rest
  | _, _ => none

def command : Codec FleetosCommand :=
  tagged commandIndex commandPayload commandRead (by
    intro value rest
    cases value <;> first
      | exact variant_encode _ _ _ _
      | simp only [commandIndex,commandPayload,commandRead,variant_encode])

def auditedCommand : Codec AuditedCommand :=
  (command.pair (option auditContext)).iso (fun ⟨a,b⟩ => (a,b)) (fun (a,b) => ⟨a,b⟩) (fun _ => rfl)

def entryPayload : Codec EntryPayload :=
  tagged (fun | .blank => 0 | .normal _ => 1 | .membership _ => 2)
    (fun | .blank => [] | .normal audited => auditedCommand.encode audited | .membership m => membership.encode m)
    (fun
      | 0, rest => some (.blank,rest)
      | 1, rest => auditedCommand.variant .normal rest
      | 2, rest => membership.variant .membership rest
      | _, _ => none)
    (by
      intro value rest
      cases value with
      | blank => rfl
      | normal audited => exact Codec.variant_encode _ _ _ _
      | membership m => exact Codec.variant_encode _ _ _ _)

def entry : Codec Entry :=
  (logId.pair entryPayload).iso (fun ⟨a,b⟩ => (a,b)) (fun (a,b) => ⟨a,b⟩) (fun _ => rfl)

instance formats : Formats where
  tenantRecord := postcard tenantRecord
  tenantBlock := postcard tenantBlock
  workloadSpecRecord := postcard workloadSpecRecord
  vpaRecommendationRecord := postcard vpaRecommendationRecord
  tenantQuotaRecord := postcard tenantQuotaRecord
  cronWorkloadRecord := postcard cronWorkloadRecord
  cronCheckpointRecord := postcard cronCheckpointRecord
  workloadStatusRecord := postcard workloadStatusRecord
  joinTokenRecord := postcard joinTokenRecord
  pcrPolicy := postcard pcrPolicy
  nodeRecord := postcard nodeRecord
  revokedSvidRecord := postcard revokedSvidRecord
  delegationRecord := postcard delegationRecord
  serviceAddress := postcard serviceAddress
  secretAcl := postcard secretAcl
  ordinalAssignment := postcard ordinalAssignment
  placement := postcard placement
  nodePoolRecord := postcard nodePoolRecord
  controlNodeAddressRecord := postcard controlNodeAddressRecord
  svidRecord := postcard svidRecord
  operatorAccessGrantRecord := postcard operatorAccessGrantRecord
  nodeEkRecord := postcard nodeEkRecord
  nodeTaints := postcard (list nodeTaint)
  logId := postcard logId
  storedMembership := postcard storedMembership
  auditRecord := postcard auditRecord
  snapshotMeta := postcard snapshotMeta
  applicationSnapshot := postcard applicationSnapshot
  entry := postcard entry

def logIdAt (index : UInt64) : LogId := ⟨⟨1,1⟩,index⟩

def commandAt (index : UInt64) (cmd : FleetosCommand) : Entry := ⟨logIdAt index,.normal (.system cmd)⟩

def fleetctlProxy : Peer := some ⟨"spiffe://admin.example.internal/ns/system/ctrl/fleetctl-proxy",by decide⟩

def adminServer (storage : Disk) : AdminServer := ⟨storage,[],86400,1700000000⟩

def twoCommands : List Entry := [commandAt 1 (.deleteTenant "acme"),commandAt 2 (.deleteTenant "acme")]

end FleetosControl.Reference
