import FleetosControl.Raft.ApplyCommand

/-! Who may call the admin service, and the requests whose checks the state machine relies on. A
handler answers with what it proposes to Raft. -/
namespace FleetosControl
open Wire

inductive Code where
  | invalidArgument | notFound | alreadyExists | permissionDenied | resourceExhausted | unavailable | unauthenticated
  | internal
  deriving DecidableEq

structure Status where
  code : Code
  message : String
  deriving DecidableEq

def invalidArgument {α : Type} (message : String) : Except Status α := .error ⟨.invalidArgument,message⟩

def permissionDenied {α : Type} (message : String) : Except Status α := .error ⟨.permissionDenied,message⟩

/-- Identifiers are shaped like DNS labels. The length is in bytes. -/
def validateIdentifier (value field : String) : Except Status Unit :=
  if value.isEmpty || 63 < (asBytes value).length then invalidArgument (field ++ " must be 1-63 characters")
  else if value.toList.all (fun c => c.isLower || c.isDigit || c = '-') && value.toList.head? ≠ some '-' &&
      value.toList.getLast? ≠ some '-' then .ok ()
  else invalidArgument (field ++ " must match [a-z0-9-] and not start/end with '-'")

section
variable [FleetosCore] [Formats]

structure AdminServer where
  storage : Disk
  bootstrapAdmins : List String
  nodeTtlSecs : UInt64
  now : Int64

abbrev Peer := Option SpiffeId

def peerIdentity (peer : Peer) : Except Status SpiffeId :=
  match peer with
  | some id => .ok id
  | none => .error ⟨.unauthenticated,"no peer certificate found"⟩

def verifyCaller (peer : Peer) : Except Status Unit := do
  match FleetosCore.kind (← peerIdentity peer) with
  | .ctrl | .operator => pure ()
  | _ => permissionDenied "caller SVID kind is not ctrl or operator"

def callerIsCtrl (peer : Peer) : Except Status Bool := do
  pure (FleetosCore.kind (← peerIdentity peer) = .ctrl)

def callerSpiffeId (peer : Peer) : Except Status String := do
  pure (display (← peerIdentity peer))

def activeGrantsForOperator (storage : Disk) (operatorId : String) (now : UInt64) : List OperatorAccessGrantRecord :=
  (scanRecords OperatorAccessGrantRecord storage .operatorGrants).filter fun grant =>
    grant.operatorId = operatorId && now < grant.expiresAtUnix

namespace AdminServer

def requireTenantWrite (server : AdminServer) (peer : Peer) (tenantId : String) : Except Status Unit := do
  if ← callerIsCtrl peer then pure () else
    let grants := activeGrantsForOperator server.storage (← callerSpiffeId peer) server.now.toUInt64
    if grants.any fun grant => !grant.readOnly && (grant.clusterAdmin || grant.tenants.contains tenantId) then pure ()
    else permissionDenied ("no active write grant for tenant '" ++ tenantId ++ "'")

def requireClusterAdminWrite (server : AdminServer) (peer : Peer) : Except Status Unit := do
  if ← callerIsCtrl peer then pure () else
    let caller ← callerSpiffeId peer
    if server.bootstrapAdmins.contains caller then pure () else
      let grants := activeGrantsForOperator server.storage caller server.now.toUInt64
      if grants.any fun grant => grant.clusterAdmin && !grant.readOnly then pure ()
      else permissionDenied "cluster_admin write scope required"

def buildAuditContext (server : AdminServer) (peer : Peer) (requestId target : String) : AuditContext where
  requestId := requestId
  actor := (peer.map display).getD "unknown"
  target := target
  timestampUnix := server.now.toUInt64

end AdminServer

end

structure FieldConflict where
  fieldPath : String
  liveValue : String
  manifestValue : String
  lastAppliedValue : String
  deriving DecidableEq

inductive MergeOutcome where
  | updated (bytes : Bytes)
  | unchanged
  | conflicted (conflicts : List FieldConflict)
  deriving DecidableEq

structure ManifestSecretSpec where
  value : Option Bytes
  authorizedSpiffeIds : List String

/-- The merges of the protobuf messages. Only where their result is stored matters here. -/
class Merges where
  ManifestWorkloadSpec : Type
  ManifestSagRuleSpec : Type
  ManifestNodePoolSpec : Type
  mergeWorkload : ManifestWorkloadSpec → Bytes → Bytes → MergeOutcome
  mergeSagRule : ManifestSagRuleSpec → Bytes → Bytes → MergeOutcome
  mergeNodePool : ManifestNodePoolSpec → Bytes → Bytes → MergeOutcome

def mergeTenant (_liveBytes _lastAppliedBytes : Bytes) : MergeOutcome := .unchanged

-- A secret named by a manifest is written back as it is.
def mergeSecret (manifest : ManifestSecretSpec) (liveBytes _lastAppliedBytes : Bytes) : MergeOutcome :=
  if manifest.value.isSome || !manifest.authorizedSpiffeIds.isEmpty then .updated liveBytes else .unchanged

inductive ManifestSpec [Merges] where
  | workload (spec : Merges.ManifestWorkloadSpec)
  | tenant
  | sagRule (spec : Merges.ManifestSagRuleSpec)
  | secret (spec : ManifestSecretSpec)
  | nodePool (spec : Merges.ManifestNodePoolSpec)

structure Manifest [Merges] where
  apiVersion : String
  kind : String
  name : String
  tenantId : String
  spec : Option ManifestSpec

inductive ApplyStatus where
  | created | applied | unchanged | conflict | invalid
  deriving DecidableEq

structure ApplyResult where
  kind : String
  name : String
  tenantId : String
  status : ApplyStatus
  conflicts : List FieldConflict
  deriving DecidableEq

structure ApplyRequest [Merges] where
  manifestList : Option (List Manifest)
  dryRun : Bool

structure StoreSecretRequest where
  tenantId : String
  key : String
  value : Bytes
  authorizedSpiffeIds : List String

structure SecretAclChange where
  tenantId : String
  key : String
  spiffeId : String

structure EvictNodeRequest where
  nodeSvid : String
  force : Bool

variable [FleetosCore] [Formats]

def parseArgument (text field : String) : Except Status SpiffeId :=
  (parse text).mapError fun e => ⟨.invalidArgument,"invalid " ++ field ++ ": " ++ e⟩

/-- The envelope is sealed under fresh randomness, so its outcome is given. -/
def prepareSecret (encryptAtRest : Bytes → Except String Bytes) (secretKey : String) (plaintext : Bytes)
    (authorized : List SpiffeId) : Except String (Bytes × Bytes) := do
  let envelope ← encryptAtRest plaintext
  let acl := authorized.foldl (fun acl id => acl.grant secretKey id) SecretAcl.new
  pure (envelope,toAllocvec acl)

namespace AdminServer

def storeSecret (server : AdminServer) (peer : Peer) (requestId : String)
    (encryptAtRest : Bytes → Except String Bytes) (req : StoreSecretRequest) : Except Status AuditedCommand := do
  verifyCaller peer
  server.requireTenantWrite peer req.tenantId
  validateIdentifier req.tenantId "tenant_id"
  if req.key.isEmpty then invalidArgument "key cannot be empty" else
  if req.value.isEmpty then invalidArgument "value cannot be empty" else
  if req.authorizedSpiffeIds.isEmpty then invalidArgument "at least one authorized_spiffe_id is required" else
    let authorized ← req.authorizedSpiffeIds.mapM fun s => parseArgument s ("authorized_spiffe_id '" ++ s ++ "'")
    let (envelopeBytes,aclBytes) ← (prepareSecret encryptAtRest req.key req.value authorized).mapError fun e =>
      ⟨.internal,"failed to prepare secret: " ++ e⟩
    -- `authorized[0]`, which exists
    let target := (authorized.head?.map display).getD ""
    pure ⟨.storeSecret ⟨req.key,envelopeBytes,aclBytes,[]⟩ target,
      some (server.buildAuditContext peer requestId req.key)⟩

def changeSecretAccess (command : String → String → String → FleetosCommand) (server : AdminServer) (peer : Peer)
    (requestId : String) (req : SecretAclChange) : Except Status AuditedCommand := do
  verifyCaller peer
  server.requireTenantWrite peer req.tenantId
  validateIdentifier req.tenantId "tenant_id"
  if req.key.isEmpty then invalidArgument "key cannot be empty" else
    let _ ← parseArgument req.spiffeId "spiffe_id"
    if (server.storage .secrets)[asBytes ("secret:" ++ req.key)]?.isNone then
      .error ⟨.notFound,"secret '" ++ req.key ++ "' not found"⟩
    else
      pure ⟨command req.tenantId req.key req.spiffeId,some (server.buildAuditContext peer requestId req.key)⟩

def grantSecretAccess : AdminServer → Peer → String → SecretAclChange → Except Status AuditedCommand :=
  changeSecretAccess .grantSecretAccess

def revokeSecretAccess : AdminServer → Peer → String → SecretAclChange → Except Status AuditedCommand :=
  changeSecretAccess .revokeSecretAccess

inductive Drain where
  | allAllowed
  | partialEvictions (placements : List Placement)

def freedOrdinal (placement : Placement) : OrdinalAssignment :=
  ⟨placement.tenantId,placement.service,placement.role,placement.ordinal,none,none⟩

def evictNode (server : AdminServer) (peer : Peer) (requestId : String) (guard : SpiffeId → Drain)
    (req : EvictNodeRequest) : Except Status (List AuditedCommand) := do
  verifyCaller peer
  server.requireClusterAdminWrite peer
  let audit := some (server.buildAuditContext peer requestId req.nodeSvid)
  let nodeSpiffe ← parseArgument req.nodeSvid "node_svid"
  match if req.force then .allAllowed else guard nodeSpiffe with
  | .allAllowed => pure [⟨.evictNode req.nodeSvid (server.now + server.nodeTtlSecs.toInt64),audit⟩]
  | .partialEvictions placements =>
    pure (⟨.setNodeSchedulable req.nodeSvid false,audit⟩ :: placements.flatMap fun placement =>
      [⟨.removePlacement placement.podId,audit⟩,⟨.recordOrdinalAssignment (freedOrdinal placement),audit⟩])

end AdminServer

export AdminServer (freedOrdinal)

def NodeController.evictNode (nodeTtlSecs : UInt64) (now : Int64) (nodeId : SpiffeId) : List AuditedCommand :=
  [.system (.evictNode (display nodeId) (now + nodeTtlSecs.toInt64)),
    .system (.pruneExpiredRevokedSvids now)]

variable [Merges]

def Manifest.target (manifest : Manifest) : Option (Keyspace × String × Bytes) :=
  match manifest.kind with
  | "Workload" => some (.workloads,"workloads",asBytes (manifest.tenantId ++ ":" ++ manifest.name))
  | "Tenant" => some (.tenants,"tenants",asBytes manifest.name)
  | "SagRule" => some (.sagRules,"sag_rules",asBytes manifest.name)
  | "Secret" => some (.secrets,"secrets",asBytes ("secret:" ++ manifest.name))
  | "NodePool" => some (.nodePools,"node_pools",asBytes manifest.name)
  | _ => none

inductive Manifest.Targets (manifest : Manifest) : Keyspace → String → Bytes → Prop where
  | workload : manifest.kind = "Workload" →
      Targets manifest .workloads "workloads" (workloadKey manifest.tenantId manifest.name)
  | tenant : manifest.kind = "Tenant" → Targets manifest .tenants "tenants" (asBytes manifest.name)
  | sagRule : manifest.kind = "SagRule" → Targets manifest .sagRules "sag_rules" (asBytes manifest.name)
  | secret : manifest.kind = "Secret" → Targets manifest .secrets "secrets" (asBytes ("secret:" ++ manifest.name))
  | nodePool : manifest.kind = "NodePool" → Targets manifest .nodePools "node_pools" (asBytes manifest.name)

omit [FleetosCore] [Formats] in
theorem Manifest.targets_of_target {manifest : Manifest} {keyspace name key}
    (target : manifest.target = some (keyspace,name,key)) : manifest.Targets keyspace name key := by
  unfold Manifest.target at target
  split at target
  case h_1 kind =>
    cases target
    exact .workload kind
  case h_2 kind =>
    cases target
    exact .tenant kind
  case h_3 kind =>
    cases target
    exact .sagRule kind
  case h_4 kind =>
    cases target
    exact .secret kind
  case h_5 kind =>
    cases target
    exact .nodePool kind
  case h_6 => cases target

export Manifest (targets_of_target)

-- A spec of another kind than the one declared changes nothing.
def Manifest.merge (manifest : Manifest) (liveBytes lastAppliedBytes : Bytes) : MergeOutcome :=
  match manifest.kind, manifest.spec with
  | "Workload", some (.workload w) => Merges.mergeWorkload w liveBytes lastAppliedBytes
  | "Tenant", some .tenant => mergeTenant liveBytes lastAppliedBytes
  | "SagRule", some (.sagRule s) => Merges.mergeSagRule s liveBytes lastAppliedBytes
  | "Secret", some (.secret s) => mergeSecret s liveBytes lastAppliedBytes
  | "NodePool", some (.nodePool n) => Merges.mergeNodePool n liveBytes lastAppliedBytes
  | _, _ => .unchanged

def Manifest.result (manifest : Manifest) (status : ApplyStatus) (conflicts : List FieldConflict) : ApplyResult :=
  ⟨manifest.kind,manifest.name,manifest.tenantId,status,conflicts⟩

-- The baseline handed to the merges is always empty.
def processManifest (storage : Disk) (manifest : Manifest) : ApplyResult × Option ManifestUpdate :=
  match manifest.target with
  | none => (manifest.result .invalid [],none)
  | some (keyspace,targetKeyspace,targetKey) =>
    match manifest.merge ((storage keyspace)[targetKey]?.getD []) [] with
    | .updated bytes =>
      let status := if manifest.tenantId.isEmpty && manifest.kind = "Tenant" then .created else .applied
      (manifest.result status [],some ⟨targetKeyspace,targetKey,bytes⟩)
    | .unchanged => (manifest.result .unchanged [],none)
    | .conflicted conflicts => (manifest.result .conflict conflicts,none)

structure ApplyBatch where
  results : List ApplyResult
  updates : List ManifestUpdate
  anyConflict : Bool
  anyInvalid : Bool

namespace AdminServer

def authorizedFor (server : AdminServer) (peer : Peer) (manifest : Manifest) : Bool :=
  if manifest.tenantId.isEmpty then (server.requireClusterAdminWrite peer).isOk
  else (server.requireTenantWrite peer manifest.tenantId).isOk

def addManifest (server : AdminServer) (peer : Peer) (batch : ApplyBatch) (manifest : Manifest) : ApplyBatch :=
  if manifest.apiVersion ≠ "fleetos.dev/v1alpha1" then
    { batch with results := batch.results ++ [manifest.result .invalid []], anyInvalid := true }
  else if !server.authorizedFor peer manifest then { batch with anyInvalid := true }
  else
    let (result,update) := processManifest server.storage manifest
    { batch with
      results := batch.results ++ [result]
      updates := batch.updates ++ update.toList
      anyConflict := batch.anyConflict || result.status = .conflict }

structure ApplyResponse where
  results : List ApplyResult
  -- `applied` in the answer says whether there is one
  proposal : Option AuditedCommand

def apply (server : AdminServer) (peer : Peer) (requestId : String) (req : ApplyRequest) :
    Except Status ApplyResponse := do
  verifyCaller peer
  match req.manifestList with
  | none => invalidArgument "manifest_list is required"
  | some manifests =>
    let batch := manifests.foldl (server.addManifest peer) ⟨[],[],false,false⟩
    if batch.anyInvalid || batch.anyConflict || req.dryRun || batch.updates.isEmpty then pure ⟨batch.results,none⟩
    else pure ⟨batch.results,
      some ⟨.applyManifests batch.updates,some (server.buildAuditContext peer requestId "apply")⟩⟩

end AdminServer

end FleetosControl
