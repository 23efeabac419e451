import FleetosControl.Attestation.Activation

/-! Delegated signing keys, issued to a node whose stored placements host the workload. -/
namespace FleetosControl
open Wire

/-- The parts of a SPIFFE identity: `SpiffeId::new` builds spiffe://domain/ns/namespace/kind/name. -/
class SpiffeParts [FleetosCore] where
  trustDomain : SpiffeId → String
  new : String → String → IdKind → String → SpiffeId
  kind_new : ∀ domain ns kind name, FleetosCore.kind (new domain ns kind name) = kind

attribute [simp] SpiffeParts.kind_new

inductive CaError where
  | placementVerification (nodeId targetSvidId : String) (targetOrdinal : UInt32)
  | other (text : String)

def CaError.display : CaError → String
  | .placementVerification nodeId targetSvidId targetOrdinal =>
    "placement verification failed: node " ++ nodeId ++ " does not host " ++ targetSvidId ++ "/" ++ toString targetOrdinal
  | .other text => text

structure SvidGrantRecord where
  spiffeId : String
  nodeKind : UInt8
  grantedAt : Int64
  expiresAt : Int64
  agentX25519Pubkey : Bytes
  deriving DecidableEq

def svidGrantTtlSecs : Int64 := 300

structure VerifiedPlacement where
  role : Option String

structure DelegatedKeyBundle where
  keyBytes : Bytes
  delegationId : String

structure DelegatedKeyRequest where
  nodeSvid : String
  targetSpiffeId : String
  targetOrdinal : Option UInt32
  requestedTtlSecs : UInt64

structure DelegatedKeyResponse where
  delegationId : Bytes
  keyMaterial : Bytes
  expiresAtUnix : UInt64

/-- The bundle as it is serialised: names as texts, times in seconds. -/
structure DelegatedSigningKey where
  nodeId : String
  targetSvidId : String
  targetOrdinal : Option UInt32
  issuedAtUnix : UInt64
  expiresAtUnix : UInt64
  signingKey : Bytes
  intermediateCertDer : Bytes
  targetRole : Option String
  deriving DecidableEq

structure CustomExtension where
  oid : List UInt64
  content : Bytes
  critical : Bool

inductive KeyUsagePurpose where
  | keyCertSign | crlSign

structure IntermediateParams where
  commonName : String
  organizationName : String
  pathLen : UInt8
  keyUsages : List KeyUsagePurpose
  notBefore : Int64
  notAfter : Int64
  customExtensions : List CustomExtension

def derElement (tag : UInt8) (content : Bytes) : Bytes := tag :: UInt8.ofNat content.length :: content

def buildUriNameConstraints (trustDomain : String) : CustomExtension :=
  let generalName := derElement 0x86 (asBytes ("spiffe://" ++ trustDomain ++ "/"))
  let generalSubtrees := derElement 0x30 (derElement 0x30 generalName)
  ⟨[2,5,29,30],derElement 0x30 (derElement 0xA0 generalSubtrees),true⟩

/-- rcgen's signatures of intermediates, the clock, and `WorkloadRole`, which keeps its text. -/
class DelegatedKeyCore [CertificateCore] extends Postcard DelegatedSigningKey where
  WorkloadRole : Type
  generate : Except String KeyPair
  serializeDer : KeyPair → Bytes
  signedBy : IntermediateParams → KeyPair → CertificateCore.Issuer → Except String Bytes
  nowUtc : Int64
  tryFrom : String → Except String WorkloadRole
  asStr : WorkloadRole → String
  asStr_tryFrom : ∀ text role, tryFrom text = .ok role → asStr role = text

def computeDelegationId (nodeId targetSvidId : String) (targetOrdinal : Option UInt32) (issuedAt : Int64) : String :=
  nodeId ++ "|" ++ targetSvidId ++ "|" ++ (targetOrdinal.map toString).getD "none" ++ "|" ++ toString issuedAt

section
variable [FleetosCore]

structure DelegationRequest where
  nodeId : SpiffeId
  targetSvidId : SpiffeId
  targetOrdinal : Option UInt32
  ttlSecs : UInt64

section
variable [Formats] [SpiffeParts] {storage : Disk}

def hosts (nodeId targetSvidId : SpiffeId) (targetOrdinal : Option UInt32) (placement : Placement) : Bool :=
  placement.nodeId = nodeId && targetOrdinal.all (placement.ordinal = ·) &&
    SpiffeParts.new (SpiffeParts.trustDomain targetSvidId) placement.tenantId .sa placement.service = targetSvidId

def verifyPlacement (storage : Disk) (nodeId targetSvidId : SpiffeId) (targetOrdinal : Option UInt32) :
    Except CaError VerifiedPlacement :=
  match (scanRecords Placement storage .placements).find? (hosts nodeId targetSvidId targetOrdinal) with
  | some placement => .ok ⟨if placement.role.isEmpty then none else some placement.role⟩
  | none => .error (.placementVerification (display nodeId) (display targetSvidId)
      (targetOrdinal.getD 0))

theorem verifyPlacement_ok (ok : verifyPlacement storage nodeId targetSvidId targetOrdinal = .ok verified) :
    ∃ placement ∈ scanRecords Placement storage .placements, hosts nodeId targetSvidId targetOrdinal placement = true := by
  unfold verifyPlacement at ok
  split at ok
  case h_1 placement found => exact ⟨placement,List.mem_of_find?_eq_some found,List.find?_some found⟩
  case h_2 => cases ok

end

structure AsksFor (req : DelegatedKeyRequest) (request : DelegationRequest) : Prop where
  node : parse req.nodeSvid = .ok request.nodeId
  target : parse req.targetSpiffeId = .ok request.targetSvidId
  ordinal : request.targetOrdinal = req.targetOrdinal

def authenticatedPeer (peer : Peer) : Except Status SpiffeId :=
  match peer with
  | some id => .ok id
  | none => .error ⟨.unauthenticated,"no authenticated peer identity"⟩

theorem authenticatedPeer_ok {peer : Peer} {id} (ok : authenticatedPeer peer = .ok id) : peer = some id := by
  cases peer with
  | none => cases ok
  | some caller => cases ok; rfl

section
variable [ProofCore]

/-- A call reads the clock twice: while it makes the key, and for the record. -/
structure DelegationConfig where
  caDataControl : Option TrustBundle
  delegatedKeyTtlSecs : UInt64
  -- `(ttl as f64 * svid_refresh_fraction) as i64`
  refreshAfter : UInt64 → Int64
  issuedAt : Int64
  now : Int64

def DelegationConfig.ttl (config : DelegationConfig) (requested : UInt64) : UInt64 :=
  if requested = 0 || config.delegatedKeyTtlSecs < requested then config.delegatedKeyTtlSecs else requested

def DelegationConfig.requireCa (config : DelegationConfig) (message : String) : Except Status TrustBundle :=
  match config.caDataControl with
  | some bundle => .ok bundle
  | none => .error ⟨.unavailable,message⟩

def DelegationConfig.record (config : DelegationConfig) (request : DelegationRequest) (bundle : DelegatedKeyBundle) :
    DelegationRecord :=
  ⟨bundle.delegationId,request.nodeId,request.targetSvidId,request.targetOrdinal,config.now,
    config.now + request.ttlSecs.toInt64,config.now + config.refreshAfter request.ttlSecs⟩

def DelegationConfig.response (config : DelegationConfig) (request : DelegationRequest) (bundle : DelegatedKeyBundle) :
    DelegatedKeyResponse :=
  ⟨asBytes bundle.delegationId,bundle.keyBytes,(config.now + request.ttlSecs.toInt64).toUInt64⟩

def DelegationService.acceptRequest (config : DelegationConfig) (peer : Peer) (req : DelegatedKeyRequest) :
    Except Status (DelegationRequest × TrustBundle) := do
  let caller ← authenticatedPeer peer
  if FleetosCore.kind caller ≠ .node then permissionDenied "delegated keys are only issued to node identities" else
    let nodeSvid ← (parse req.nodeSvid).mapError fun e => ⟨.invalidArgument,"invalid node_svid: " ++ e⟩
    if caller ≠ nodeSvid then permissionDenied "caller identity does not match node_svid" else
      let bundle ← config.requireCa "CA not yet replicated; delegated keys unavailable until catch-up"
      let targetSvid ← (parse req.targetSpiffeId).mapError fun e =>
        ⟨.invalidArgument,"invalid target_spiffe_id: " ++ e⟩
      pure (⟨caller,targetSvid,req.targetOrdinal,config.ttl req.requestedTtlSecs⟩,bundle)

variable {config : DelegationConfig} {peer : Peer} {req : DelegatedKeyRequest}

theorem DelegationService.acceptRequest_ok (ok : DelegationService.acceptRequest config peer req = .ok (request,bundle)) :
    peer = some request.nodeId ∧ FleetosCore.kind request.nodeId = .node ∧ AsksFor req request := by
  obtain ⟨caller,identified,ok⟩ := bind_ok ok
  have peered := authenticatedPeer_ok identified
  split at ok
  · cases ok
  case isFalse node =>
    obtain ⟨nodeSvid,parsed,ok⟩ := bind_ok ok
    split at ok
    · cases ok
    case isFalse same =>
      obtain ⟨bundle,_,ok⟩ := bind_ok ok
      obtain ⟨targetSvid,target,ok⟩ := bind_ok ok
      cases ok
      rw [not_not] at same
      exact ⟨peered,not_not.mp node,same ▸ mapError_ok.mp parsed,mapError_ok.mp target,rfl⟩

variable [Formats]

namespace AdminServer

def requireClusterAdmin (server : AdminServer) (peer : Peer) : Except Status Unit := do
  let caller ← callerSpiffeId peer
  match FleetosCore.kind (← peerIdentity peer) with
  | .ctrl => pure ()
  | .operator =>
    if server.bootstrapAdmins.contains caller then pure ()
    else if (activeGrantsForOperator server.storage caller server.now.toUInt64).any (·.clusterAdmin) then pure ()
    else permissionDenied "cluster_admin scope required"
  | _ => permissionDenied "cluster_admin scope required"

def acceptRequest (server : AdminServer) (config : DelegationConfig) (peer : Peer) (req : DelegatedKeyRequest) :
    Except Status (DelegationRequest × TrustBundle) := do
  verifyCaller peer
  server.requireClusterAdmin peer
  let nodeSpiffe ← (parse req.nodeSvid).mapError fun e => ⟨.invalidArgument,"invalid node_svid: " ++ e⟩
  let targetSpiffe ← (parse req.targetSpiffeId).mapError fun e =>
    ⟨.invalidArgument,"invalid target_spiffe_id: " ++ e⟩
  let bundle ← config.requireCa "CA not available (join mode first boot)"
  pure (⟨nodeSpiffe,targetSpiffe,req.targetOrdinal,config.ttl req.requestedTtlSecs⟩,bundle)

theorem acceptRequest_ok {server : AdminServer}
    (ok : server.acceptRequest config peer req = .ok (request,bundle)) : AsksFor req request := by
  obtain ⟨_,_,ok⟩ := bind_ok ok
  obtain ⟨_,_,ok⟩ := bind_ok ok
  obtain ⟨nodeSpiffe,parsed,ok⟩ := bind_ok ok
  obtain ⟨targetSpiffe,target,ok⟩ := bind_ok ok
  obtain ⟨bundle,_,ok⟩ := bind_ok ok
  cases ok
  exact ⟨mapError_ok.mp parsed,mapError_ok.mp target,rfl⟩

end AdminServer

end

variable [SpiffeParts] [ProofCore] [DelegatedKeyCore]

def intermediateParams (request : DelegationRequest) : IntermediateParams where
  commonName := "FleetOS Delegated CA (" ++ display request.nodeId ++ ")"
  organizationName := "FleetOS"
  pathLen := 0
  keyUsages := [.keyCertSign,.crlSign]
  notBefore := DelegatedKeyCore.nowUtc
  notAfter := DelegatedKeyCore.nowUtc + request.ttlSecs.toInt64
  customExtensions := [buildUriNameConstraints (SpiffeParts.trustDomain request.nodeId)]

def signIntermediate (request : DelegationRequest) (bundle : TrustBundle) :
    Except String (KeyPair × Bytes) := do
  let keyPair ← DelegatedKeyCore.generate.mapError ("key generation error: " ++ ·)
  let issuer ← (CertificateCore.issuer bundle.currentCertDer bundle.currentKey).mapError
    ("signing error: failed to construct issuer: " ++ ·)
  let certDer ← (DelegatedKeyCore.signedBy (intermediateParams request) keyPair issuer).mapError ("rcgen error: " ++ ·)
  pure (keyPair,certDer)

def targetRole (role : Option String) : Except String (Option DelegatedKeyCore.WorkloadRole) :=
  match role with
  | none => .ok none
  | some text =>
    ((DelegatedKeyCore.tryFrom text).map some).mapError ("validation error: invalid role from placement: " ++ ·)

def delegatedSigningKey (request : DelegationRequest) (role : Option DelegatedKeyCore.WorkloadRole) (issuedAt : Int64)
    (keyPair : KeyPair) (certDer : Bytes) : DelegatedSigningKey where
  nodeId := display request.nodeId
  targetSvidId := display request.targetSvidId
  targetOrdinal := request.targetOrdinal
  issuedAtUnix := issuedAt.toUInt64
  expiresAtUnix := (issuedAt + request.ttlSecs.toInt64).toUInt64
  signingKey := DelegatedKeyCore.serializeDer keyPair
  intermediateCertDer := certDer
  targetRole := role.map DelegatedKeyCore.asStr

def delegatedKeyBytes (request : DelegationRequest) (role : Option String) (bundle : TrustBundle)
    (issuedAt : Int64) : Except String Bytes := do
  let (keyPair,certDer) ← signIntermediate request bundle
  let role ← targetRole role
  pure (toAllocvec (delegatedSigningKey request role issuedAt keyPair certDer))

variable [Formats]

def issueDelegatedKey (request : DelegationRequest) (bundle : TrustBundle) (storage : Disk)
    (issuedAt : Int64) : Except CaError DelegatedKeyBundle := do
  let verified ← verifyPlacement storage request.nodeId request.targetSvidId request.targetOrdinal
  let delegationId := computeDelegationId (display request.nodeId) (display request.targetSvidId)
    request.targetOrdinal issuedAt
  let keyBytes ← (delegatedKeyBytes request verified.role bundle issuedAt).mapError .other
  pure ⟨keyBytes,delegationId⟩

structure Delegated where
  proposal : AuditedCommand
  response : DelegatedKeyResponse

namespace DelegationService

def requestDelegatedKey (config : DelegationConfig) (storage : Disk) (peer : Peer) (requestId : String)
    (req : DelegatedKeyRequest) : Except Status Delegated := do
  let (request,bundle) ← acceptRequest config peer req
  let key ← (issueDelegatedKey request bundle storage config.issuedAt).mapError fun
    | .placementVerification node target ordinal => ⟨.permissionDenied,"placement verification failed: " ++
        (CaError.placementVerification node target ordinal).display⟩
    | other => ⟨.internal,"delegated key issuance failed: " ++ other.display⟩
  pure ⟨⟨.issueDelegation (config.record request key),some ⟨requestId,display request.nodeId,
    display request.targetSvidId,config.now.toUInt64⟩⟩,config.response request key⟩

end DelegationService

namespace AdminServer

def requestDelegatedKey (server : AdminServer) (config : DelegationConfig) (peer : Peer) (requestId : String)
    (req : DelegatedKeyRequest) : Except Status Delegated := do
  let (request,bundle) ← server.acceptRequest config peer req
  let key ← (issueDelegatedKey request bundle server.storage config.issuedAt).mapError fun e =>
    ⟨.internal,"failed to issue delegated key: " ++ e.display⟩
  pure ⟨⟨.issueDelegation (config.record request key),
    some (server.buildAuditContext peer requestId key.delegationId)⟩,config.response request key⟩

end AdminServer

/-- What both paths propose: the record of a key for a workload that is placed on the record's node. -/
structure DelegatedFrom (storage : Disk) (issuedAt : Int64) (record : DelegationRecord) : Prop where
  hosted : ∃ placement ∈ scanRecords Placement storage .placements,
    hosts record.nodeId record.targetSvidId record.targetOrdinal placement = true
  named : record.delegationId = computeDelegationId (display record.nodeId)
    (display record.targetSvidId) record.targetOrdinal issuedAt

variable {config : DelegationConfig} {storage : Disk} {peer : Peer}

theorem issueDelegatedKey_ok (ok : issueDelegatedKey request bundle storage config.issuedAt = .ok key) :
    DelegatedFrom storage config.issuedAt (config.record request key) := by
  obtain ⟨verified,placed,ok⟩ := bind_ok ok
  obtain ⟨bytes,_,ok⟩ := bind_ok ok
  cases ok
  exact ⟨verifyPlacement_ok placed,rfl⟩

variable {requestId : String} {req : DelegatedKeyRequest} {delegated : Delegated}

theorem DelegationService.requestDelegatedKey_proposes
    (ok : DelegationService.requestDelegatedKey config storage peer requestId req = .ok delegated) :
    ∃ record, delegated.proposal.cmd = .issueDelegation record ∧ peer = some record.nodeId ∧
      FleetosCore.kind record.nodeId = .node ∧ DelegatedFrom storage config.issuedAt record := by
  obtain ⟨⟨request,bundle⟩,accepted,ok⟩ := bind_ok ok
  obtain ⟨key,issued,ok⟩ := bind_ok ok
  cases ok
  obtain ⟨peered,node,_⟩ := DelegationService.acceptRequest_ok accepted
  exact ⟨_,rfl,peered,node,issueDelegatedKey_ok (mapError_ok.mp issued)⟩

theorem AdminServer.requestDelegatedKey_proposes {server : AdminServer}
    (ok : server.requestDelegatedKey config peer requestId req = .ok delegated) :
    ∃ record, delegated.proposal.cmd = .issueDelegation record ∧
      DelegatedFrom server.storage config.issuedAt record := by
  obtain ⟨⟨request,bundle⟩,_,ok⟩ := bind_ok ok
  obtain ⟨key,issued,ok⟩ := bind_ok ok
  cases ok
  exact ⟨_,rfl,issueDelegatedKey_ok (mapError_ok.mp issued)⟩

end

end FleetosControl
