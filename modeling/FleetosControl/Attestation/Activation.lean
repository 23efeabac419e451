import FleetosControl.Raft.StateMachine

/-! Credential activation. A request is matched with a registered endorsement key and answered with
a challenge; the proof binds the key to an identity. -/
namespace FleetosControl
open Wire KeyValue

/-- From `fleetos-core`, x509, rcgen and the TPM. A private key is named by its public half. -/
class AttestationCore where
  ofEkPub : Bytes → String
  ofEkCert : Bytes → Except String String
  extractSpkiFromCert : Bytes → Except String Bytes
  -- the convergence of the two forms of one key
  ofEkCert_iff : ∀ cert fingerprint, ofEkCert cert = .ok fingerprint ↔
    ∃ spki, extractSpkiFromCert cert = .ok spki ∧ ofEkPub spki = fingerprint
  validateEkCertChain : Int64 → Bytes → Except String Unit
  -- TPM2_MakeCredential for an EK, an AK and a secret, under the seed it draws
  makeCredential : Bytes → Bytes → Bytes → Bytes → Except String (Bytes × Bytes)
  -- TPM2_ActivateCredential at the TPM that holds this EK
  activateCredential : Bytes → Bytes × Bytes → Option Bytes
  activate_make : ∀ ek ak secret seed credential, makeCredential ek ak secret seed = .ok credential →
    ∀ key, activateCredential key credential = if key = ek then some secret else none

export AttestationCore (ofEkPub ofEkCert makeCredential)

structure RegisterNodeEkRequest where
  ekCertDer : Bytes
  ekPub : Bytes
  nodeId : String
  ttlSecs : UInt64

section
def requireEk (ekCertDer ekPub : Bytes) : Except Status Unit :=
  if ekCertDer.isEmpty && ekPub.isEmpty then invalidArgument "either ek_cert_der or ek_pub must be provided"
  else .ok ()

variable {ekCertDer ekPub : Bytes}

theorem requireEk_ok (ok : requireEk ekCertDer ekPub = .ok ()) : ekCertDer ≠ [] ∨ ekPub ≠ [] := by
  unfold requireEk at ok
  split at ok
  · cases ok
  case isFalse given => simpa [or_iff_not_imp_left] using given

variable [AttestationCore]

def validateEkCert (now : Int64) (ekCertDer : Bytes) : Except Status Unit :=
  if ekCertDer.isEmpty then .ok ()
  else (AttestationCore.validateEkCertChain now ekCertDer).mapError fun e =>
    ⟨.invalidArgument,"EK certificate chain validation failed: " ++ e⟩

-- The certificate decides when both forms are given.
def ekFingerprint (ekCertDer ekPub : Bytes) : Except Status String :=
  if ekCertDer.isEmpty then .ok (ofEkPub ekPub)
  else (ofEkCert ekCertDer).mapError fun e =>
    ⟨.invalidArgument,"EK cert extraction failed: " ++ e⟩

theorem ekFingerprint_ok (ok : ekFingerprint ekCertDer ekPub = .ok fingerprint) :
    (ekCertDer = [] ∧ ofEkPub ekPub = fingerprint) ∨
      (ekCertDer ≠ [] ∧ ofEkCert ekCertDer = .ok fingerprint) := by
  unfold ekFingerprint at ok
  split at ok
  case isTrue empty =>
    left
    exact ⟨List.isEmpty_iff.mp empty,Except.ok.inj ok⟩
  case isFalse given =>
    right
    exact ⟨fun empty => given (by simp [empty]),mapError_ok.mp ok⟩

end

section
variable [FleetosCore] [Formats] [AttestationCore] {disk : Disk} {writes : List Write} {kind : ChangeKind}

namespace AdminServer

def registerNodeEk (server : AdminServer) (peer : Peer) (requestId : String) (req : RegisterNodeEkRequest) :
    Except Status AuditedCommand := do
  verifyCaller peer
  server.requireClusterAdminWrite peer
  requireEk req.ekCertDer req.ekPub
  validateEkCert server.now req.ekCertDer
  let fingerprint ← ekFingerprint req.ekCertDer req.ekPub
  if !req.ekCertDer.isEmpty && !req.ekPub.isEmpty && fingerprint ≠ ofEkPub req.ekPub then
    invalidArgument "EK convergence check failed: cert and public key fingerprints differ"
  else if (server.storage .nodeEks)[asBytes fingerprint]?.isSome then
    .error ⟨.alreadyExists,"EK '" ++ fingerprint ++ "' is already registered"⟩
  else
    let ttl := if req.ttlSecs = 0 then 3600 else req.ttlSecs.toInt64
    pure ⟨.registerNodeEk ⟨fingerprint,req.ekPub,req.ekCertDer,req.nodeId,server.now,some (server.now + ttl),.pending⟩,
      some (server.buildAuditContext peer requestId fingerprint)⟩

def revokeNodeEk (server : AdminServer) (peer : Peer) (requestId ekFingerprint : String) :
    Except Status AuditedCommand := do
  verifyCaller peer
  server.requireClusterAdminWrite peer
  if ekFingerprint.isEmpty then invalidArgument "ek_fingerprint cannot be empty" else
  if (server.storage .nodeEks)[asBytes ekFingerprint]?.isNone then
    .error ⟨.notFound,"EK '" ++ ekFingerprint ++ "' not found"⟩
  else pure ⟨.revokeNodeEk ekFingerprint,some (server.buildAuditContext peer requestId ekFingerprint)⟩

end AdminServer

def NodeEkRecord.publicKey (record : NodeEkRecord) : Except String Bytes :=
  if record.ekPub.isEmpty then AttestationCore.extractSpkiFromCert record.ekCertDer else .ok record.ekPub

/-- A stored record stands under the fingerprint of the key it was registered for. -/
def EkBound (keyspace : Keyspace) (key bytes : Bytes) : Prop :=
  keyspace = .nodeEks → ∃ (record : NodeEkRecord) (publicKey : Bytes), fromBytes bytes = .ok record ∧
    key = asBytes record.ekFingerprint ∧ record.publicKey = .ok publicKey ∧
    ofEkPub publicKey = record.ekFingerprint

def RegisteredBy (audited : AuditedCommand) : Prop :=
  ∃ (server : AdminServer) (peer : Peer) (requestId : String) (req : RegisterNodeEkRequest),
    server.registerNodeEk peer requestId req = .ok audited

inductive Registered : Disk → Prop where
  | fresh : Registered Disk.empty
  | applied {before : Node} {after} {entry : Entry} {response} : Registered before.disk →
      (∀ audited record, entry.payload = .normal audited → audited.cmd = .registerNodeEk record → RegisteredBy audited) →
      applyEntry before entry = .ok (after,response) → Registered after.disk
  | installed {before : Node} {after view info} : Registered before.disk → Registered view →
      installSnapshot before info (toAllocvec (⟨collectKeyspacesFromView view⟩ : ApplicationSnapshot)) = .ok after →
      Registered after.disk
  | besides {disk : Disk} {writes : List Write} :
      Registered disk → (∀ write ∈ writes, write.table ≠ .nodeEks) → Registered (commit disk writes)

theorem registerNodeEk_converges (made : RegisteredBy audited) (command : audited.cmd = .registerNodeEk record) :
    ∃ publicKey, record.publicKey = .ok publicKey ∧ ofEkPub publicKey = record.ekFingerprint := by
  obtain ⟨server,peer,requestId,req,ok⟩ := made
  obtain ⟨_,_,ok⟩ := bind_ok ok
  obtain ⟨_,_,ok⟩ := bind_ok ok
  obtain ⟨_,given,ok⟩ := bind_ok ok
  obtain ⟨_,_,ok⟩ := bind_ok ok
  obtain ⟨fingerprint,computed,ok⟩ := bind_ok ok
  split at ok
  · cases ok
  case isFalse converges =>
    split at ok
    · cases ok
    cases ok
    cases command
    rcases ekFingerprint_ok computed with ⟨noCert,same⟩ | ⟨cert,same⟩
    · have pub : req.ekPub ≠ [] := (requireEk_ok given).resolve_left (absurd noCert)
      exact ⟨req.ekPub,by simp [NodeEkRecord.publicKey,pub],same⟩
    · by_cases pub : req.ekPub.isEmpty = true
      · obtain ⟨spki,extracted,same⟩ := (AttestationCore.ofEkCert_iff _ _).mp same
        exact ⟨spki,by simp [NodeEkRecord.publicKey,pub,extracted],same⟩
      · have certGiven : req.ekCertDer.isEmpty = false := by simpa using cert
        have agrees : fingerprint = ofEkPub req.ekPub := by
          simpa [certGiven,pub] using converges
        exact ⟨req.ekPub,by simp [NodeEkRecord.publicKey,pub],agrees.symm⟩

theorem ekBound_elsewhere (write : Write) (elsewhere : write.table ≠ .nodeEks) : write.Keeps EkBound := by
  cases write with
  | insert keyspace key bytes => exact fun same => (elsewhere same).elim
  | remove keyspace key => trivial

theorem updateNodeEk_keeps (bound : Every EkBound disk) {change : NodeEkRecord → NodeEkRecord}
    (ok : updateNodeEk disk fingerprint change = .ok (writes,kind))
    (material : ∀ record, (change record).ekFingerprint = record.ekFingerprint ∧
      (change record).publicKey = record.publicKey) : ∀ write ∈ writes, write.Keeps EkBound := by
  obtain ⟨found,read,ok⟩ := bind_ok ok
  cases found with
  | none =>
    cases ok
    simp
  | some record =>
    cases ok
    intro write member
    rw [mem_singleton.mp member]
    intro _
    unfold readRecord at read
    split at read
    case h_1 bytes stored =>
      obtain ⟨kept,publicKey,decoded,key,known,same⟩ := bound .nodeEks _ _ stored rfl
      obtain rfl : kept = record := by simpa [decoded,serErr,Except.mapError,Except.map] using read
      refine ⟨change kept,publicKey,by simp,?_,?_,?_⟩
      · rw [(material kept).1]
        exact key
      · rw [(material kept).2]
        exact known
      · rw [(material kept).1]
        exact same
    case h_2 => cases read

theorem applyCommand_keeps_ekBound (bound : Every EkBound disk)
    (registered : ∀ record, cmd = .registerNodeEk record →
      ∃ publicKey, record.publicKey = .ok publicKey ∧ ofEkPub publicKey = record.ekFingerprint)
    (ok : applyCommand disk cmd = .ok (writes,kind)) : ∀ write ∈ writes, write.Keeps EkBound := by
  cases cmd
  case registerNodeEk record =>
    obtain ⟨publicKey,known,same⟩ := registered record rfl
    cases ok
    intro write member
    rw [mem_singleton.mp member]
    exact fun _ => ⟨record,publicKey,by simp,rfl,known,same⟩
  case activateNodeEk => exact updateNodeEk_keeps bound ok fun _ => ⟨rfl,rfl⟩
  case revokeNodeEk => exact updateNodeEk_keeps bound ok fun _ => ⟨rfl,rfl⟩
  all_goals
    intro write member
    apply ekBound_elsewhere
    intro same
    have inside := applyCommand_within _ _ _ _ ok write member
    rw [same] at inside
    simp [touches] at inside

theorem applyEntry_keeps_ekBound {before : Node} {entry : Entry} (bound : Every EkBound before.disk)
    (registered : ∀ audited record, entry.payload = .normal audited →
    audited.cmd = .registerNodeEk record →
      RegisteredBy audited) (ok : applyEntry before entry = .ok (after,response)) : Every EkBound after.disk := by
  obtain ⟨writes,kind,payload,_,effect⟩ := applyEntry_effect ok
  have kept : Every EkBound (commit before.disk writes) := by
    apply commit_every bound
    unfold payloadWrites at payload
    split at payload
    · cases payload
      simp
    case h_2 audited normal =>
      apply applyCommand_keeps_ekBound bound _ payload
      intro record command
      exact registerNodeEk_converges (registered audited record normal command) command
    · cases payload
      intro write member
      rw [mem_singleton.mp member]
      exact ekBound_elsewhere _ (by simp)
  intro keyspace key bytes found same
  subst same
  rw [effect.application .nodeEks rfl] at found
  exact kept .nodeEks key bytes found rfl

theorem Registered.bound (registered : Registered disk) : Every EkBound disk := by
  induction registered with
  | fresh => exact every_empty _
  | applied _ made ok ih => exact applyEntry_keeps_ekBound ih made ok
  | @installed before after view info _ _ ok _ sent =>
    obtain ⟨same,okSame,moved⟩ := installSnapshot_collected before info view
    obtain rfl : same = after := Except.ok.inj (okSame.symm.trans ok)
    intro keyspace key bytes found ek
    subst ek
    exact sent .nodeEks key bytes (moved.contents .nodeEks (by decide) (by decide) ▸ found) rfl
  | besides _ elsewhere ih => exact commit_every ih _ fun write member => ekBound_elsewhere write (elsewhere write member)

end

structure PendingActivationRecord where
  ekFingerprint : String
  akPub : Bytes
  serverNonce : Bytes
  secret : Bytes
  createdAt : Int64
  expiresAt : Int64
  deriving DecidableEq

class ActivationFormats where
  [pendingActivationRecord : Postcard PendingActivationRecord]
  [pcrValues : Postcard (List PcrValue)]

attribute [reducible,instance] ActivationFormats.pendingActivationRecord ActivationFormats.pcrValues

structure TpmQuote where
  quoteBytes : Bytes
  signature : Bytes
  nonce : Bytes
  pcrSelection : List PcrValue
  attestationKeyPub : Bytes

structure OffsetDateTime where
  unixTimestamp : Int64
  inRange : -377705116800 ≤ unixTimestamp ∧ unixTimestamp ≤ 253402300799

inductive SanType where
  | uri (text : String)
  | dnsName (text : String)
  | rfc822Name (text : String)
  | ipAddress (octets : Bytes)
  | otherName (oid value : Bytes)
  deriving DecidableEq

def uriNames (names : List SanType) : List String :=
  names.filterMap fun
    | .uri text => some text
    | _ => none

structure CertificateParams where
  subjectAltNames : List SanType
  notBefore : Int64
  notAfter : Int64
  customExtensions : List Bytes

/-- rcgen. A certificate carries the alternative names it was signed with. -/
class CertificateCore where
  KeyPair : Type
  PublicKey : Type
  Issuer : Type
  -- `CertificateSigningRequestParams::from_der`
  fromDer : Bytes → Except String (CertificateParams × PublicKey)
  -- `Issuer::from_ca_cert_der`
  issuer : (caCertDer : Bytes) → (caKey : KeyPair) → Except String Issuer
  signedBy : CertificateParams → PublicKey → Issuer → Except String Bytes
  subjectAltNames : Bytes → List SanType
  signedBy_names : ∀ params key issuer certDer, signedBy params key issuer = .ok certDer →
    subjectAltNames certDer = params.subjectAltNames
  degradedExtension : Bool → Bytes
  extractOrdinal : Bytes → Option UInt32

export CertificateCore (KeyPair subjectAltNames)

section
variable [CertificateCore] {now : Int64} {csrDer certDer : Bytes} {ttlSecs : UInt64} {spiffeId : String}

structure PreviousRoot where
  key : KeyPair
  certDer : Bytes
  certPem : String
  supersededAt : OffsetDateTime

structure TrustBundle where
  trustDomain : String
  currentKey : KeyPair
  currentCertDer : Bytes
  currentCertPem : String
  previous : Option PreviousRoot

/-- The URI names among the alternative names of a CSR, in order. -/
def csrUris (csrDer : Bytes) : Except String (List String) :=
  (CertificateCore.fromDer csrDer).map fun parsed => uriNames parsed.1.subjectAltNames

def extractSpiffeIdFromCsr (csrDer : Bytes) : Except String String :=
  match csrUris csrDer with
  | .error e => .error ("signing error: failed to parse CSR: " ++ e)
  | .ok uris =>
    match uris.find? fun uri => (asBytes "spiffe://").isPrefixOf (asBytes uri) with
    | some uri => .ok uri
    | none => .error "validation error: no SPIFFE URI SAN found in CSR"

-- The alternative names are signed as they came.
def signCsr (now : Int64) (csrDer : Bytes) (bundle : TrustBundle) (ttlSecs : UInt64) : Except String Bytes := do
  let (params,publicKey) ← (CertificateCore.fromDer csrDer).mapError ("signing error: failed to parse CSR: " ++ ·)
  let issuer ← (CertificateCore.issuer bundle.currentCertDer bundle.currentKey).mapError
    ("signing error: failed to construct issuer: " ++ ·)
  let finalParams := { params with
    notBefore := now
    notAfter := now + ttlSecs.toInt64
    customExtensions := params.customExtensions ++ [CertificateCore.degradedExtension false] }
  (CertificateCore.signedBy finalParams publicKey issuer).mapError ("rcgen error: " ++ ·)

theorem signCsr_names (ok : signCsr now csrDer bundle ttlSecs = .ok certDer) :
    csrUris csrDer = .ok (uriNames (subjectAltNames certDer)) := by
  obtain ⟨⟨params,publicKey⟩,parsed,ok⟩ := bind_ok ok
  obtain ⟨issuer,_,ok⟩ := bind_ok ok
  rw [CertificateCore.signedBy_names _ _ _ _ (mapError_ok.mp ok),csrUris,mapError_ok.mp parsed]
  rfl

theorem extractSpiffeIdFromCsr_mem (ok : extractSpiffeIdFromCsr csrDer = .ok spiffeId)
    (read : csrUris csrDer = .ok uris) : spiffeId ∈ uris := by
  unfold extractSpiffeIdFromCsr at ok
  simp only [read] at ok
  split at ok
  case h_1 uri found =>
    cases ok
    exact List.mem_of_find?_eq_some found
  case h_2 => cases ok

theorem certificate_names_iff (extracted : extractSpiffeIdFromCsr csrDer = .ok spiffeId)
    (signed : signCsr now csrDer bundle ttlSecs = .ok certDer) :
    uriNames (subjectAltNames certDer) = [spiffeId] ↔ ∃ uri, csrUris csrDer = .ok [uri] := by
  have names := signCsr_names signed
  rw [names]
  constructor
  · intro only
    exact ⟨spiffeId,congrArg _ only⟩
  · rintro ⟨uri,only⟩
    have listed := Except.ok.inj only
    have named := extractSpiffeIdFromCsr_mem extracted names
    rw [listed,mem_singleton] at named
    rw [listed,named]

end

class ProofCore extends CertificateCore where
  keyedHash : Bytes → Bytes → Bytes
  verifyQuoteStructure : TpmQuote → Bytes → Bool
  verifyQuoteSignature : TpmQuote → Bool
  verifyPcrPolicy : List PcrValue → List PcrValue → Bool
  verifyPcrBinding : Bytes → List PcrValue → Bool

inductive AttestationMode where
  | insecure | secure
  deriving DecidableEq

structure ActivationRequest where
  ekCertDer : Bytes
  ekPub : Bytes
  akPub : Bytes

structure ActivationChallenge where
  credentialBlob : Bytes
  secret : Bytes
  serverNonce : Bytes
  deriving DecidableEq

structure ActivationProof where
  hmac : Bytes
  csrDer : Bytes
  pcrSelection : Bytes
  quote : Bytes
  quoteSignature : Bytes
  agentX25519Pubkey : Bytes

-- What is drawn at random while a request is served: the nonce, unless too many are pending, and the secret.
structure ActivationDraw where
  serverNonce : Except String Bytes
  secret : Bytes
  seed : Bytes

structure Activation where
  ekFingerprint : String
  spiffeId : String
  certDer : Bytes
  agentX25519Pubkey : Bytes
  deriving DecidableEq

structure PendingScan where
  matched : Option (Bytes × PendingActivationRecord)
  expired : List Bytes

variable [FleetosCore] [Formats] [AttestationCore] [ProofCore] [ActivationFormats] {storage : Disk}
  {server : AttestationServer} {req : ActivationProof} {activation : Activation}

structure AttestationServer where
  storage : Disk
  attestationMode : AttestationMode
  dataControl : Option TrustBundle
  svidTtlSecs : UInt64
  now : Int64

def usableEk (storage : Disk) (now : Int64) (fingerprint : String) : Except Status NodeEkRecord :=
  match (storage .nodeEks)[asBytes fingerprint]? with
  | none => permissionDenied "EK not registered"
  | some bytes =>
    match fromBytes (α := NodeEkRecord) bytes with
    | .error e => .error ⟨.internal,"corrupt EK record: " ++ e⟩
    | .ok record =>
      if record.state = .revoked then permissionDenied "EK registration has been revoked"
      else if record.expiresAt.any (· < now) then permissionDenied "EK registration has expired"
      else .ok record

-- The raw key is preferred; the fingerprint above preferred the certificate.
def activationKey (req : ActivationRequest) : Except Status Bytes :=
  if req.ekPub.isEmpty then (AttestationCore.extractSpkiFromCert req.ekCertDer).mapError fun e =>
    ⟨.internal,"EK SPKI extraction failed: " ++ e⟩
  else .ok req.ekPub

namespace AttestationServer

def requireSecure (server : AttestationServer) : Except Status TrustBundle :=
  if server.attestationMode = .insecure then
    permissionDenied "secure (credential-activation) attestation is disabled in insecure mode"
  else match server.dataControl with
    | none => .error ⟨.unavailable,"CA not yet replicated; secure attestation unavailable until catch-up"⟩
    | some bundle => .ok bundle

/-- The checks of `request_activation`, one of them made twice. -/
def matchEk (server : AttestationServer) (req : ActivationRequest) : Except Status (String × NodeEkRecord) := do
  let _ ← server.requireSecure
  if req.akPub.isEmpty then invalidArgument "ak_pub cannot be empty" else
    requireEk req.ekCertDer req.ekPub
    requireEk req.ekCertDer req.ekPub
    validateEkCert server.now req.ekCertDer
    let fingerprint ← ekFingerprint req.ekCertDer req.ekPub
    let record ← usableEk server.storage server.now fingerprint
    pure (fingerprint,record)

def makeChallenge (draw : ActivationDraw) (nonce : Bytes) (req : ActivationRequest) :
    Except Status ActivationChallenge := do
  let ekSpkiDer ← activationKey req
  let (credentialBlob,encSecret) ← (makeCredential ekSpkiDer req.akPub draw.secret draw.seed).mapError
    fun e => ⟨.internal,"TPM2_MakeCredential failed: " ++ e⟩
  pure ⟨credentialBlob,encSecret,nonce⟩

/-- The pending activation is stored before the credential is made, and stays when that fails. -/
def requestActivation (server : AttestationServer) (draw : ActivationDraw) (req : ActivationRequest) :
    Disk × Except Status ActivationChallenge :=
  match server.matchEk req with
  | .error status => (server.storage,.error status)
  | .ok (fingerprint,_) =>
    match draw.serverNonce with
    | .error e => (server.storage,.error ⟨.internal,"nonce generation failed: " ++ e⟩)
    | .ok nonce =>
      let record : PendingActivationRecord := ⟨fingerprint,req.akPub,nonce,draw.secret,server.now,server.now + 300⟩
      (commit server.storage [put .pendingActivations nonce record],makeChallenge draw nonce req)

def scanStep (now : Int64) (hmac : Bytes) (scan : PendingScan) (entry : Bytes × Bytes) : Except Status PendingScan :=
  match fromBytes (α := PendingActivationRecord) entry.2 with
  | .error _ => .ok scan
  | .ok record =>
    if record.expiresAt < now then .ok { scan with expired := scan.expired ++ [entry.1] }
    else if scan.matched.isSome then .ok scan
    else if record.secret.length ≠ 32 then .error ⟨.internal,"invalid secret length"⟩
    else if ProofCore.keyedHash record.secret record.serverNonce = hmac then
      .ok { scan with matched := some (entry.1,record) }
    else .ok scan

def getExpectedPcrs (storage : Disk) (nodeId : String) : Except Status (List PcrValue) :=
  match (storage .pcrPolicies)[asBytes nodeId]? with
  | none => permissionDenied "secure attestation requires a registered PCR policy for this node"
  | some bytes =>
    match fromBytes (α := PcrPolicy) bytes with
    | .error e => .error ⟨.internal,"PCR policy lookup failed: serialization error: " ++ e⟩
    | .ok policy =>
      if policy.active then .ok policy.expectedPcrs
      else permissionDenied "secure attestation requires a registered PCR policy for this node"

def check (passed : Bool) (message : String) : Except Status Unit :=
  if passed then .ok () else permissionDenied message

def verifyProof (server : AttestationServer) (bundle : TrustBundle) (record : PendingActivationRecord)
    (req : ActivationProof) : Except Status Activation := do
  let spiffeId ← (extractSpiffeIdFromCsr req.csrDer).mapError fun e =>
    ⟨.invalidArgument,"CSR validation failed: " ++ e⟩
  let submittedPcrs ← if req.pcrSelection.isEmpty then .ok []
    else (fromBytes (α := List PcrValue) req.pcrSelection).mapError fun e =>
      ⟨.invalidArgument,"pcr_selection parse failed: " ++ e⟩
  let quote : TpmQuote := ⟨req.quote,req.quoteSignature,record.serverNonce,submittedPcrs,record.akPub⟩
  check (ProofCore.verifyQuoteStructure quote record.serverNonce) "quote structure verification failed"
  check (ProofCore.verifyQuoteSignature quote) "quote signature verification failed"
  let expectedPcrs ← getExpectedPcrs server.storage spiffeId
  check (ProofCore.verifyPcrPolicy submittedPcrs expectedPcrs) "PCR policy mismatch"
  check (ProofCore.verifyPcrBinding req.quote submittedPcrs) "PCR digest binding mismatch"
  let certDer ← (signCsr server.now req.csrDer bundle server.svidTtlSecs).mapError fun e =>
    ⟨.internal,"CSR signing failed: " ++ e⟩
  pure ⟨record.ekFingerprint,spiffeId,certDer,req.agentX25519Pubkey⟩

/-- Up to the first proposal. The matched activation is used up once its key has passed the second look. -/
def checkProof (server : AttestationServer) (req : ActivationProof) : Disk × Except Status Activation :=
  match server.requireSecure with
  | .error status => (server.storage,.error status)
  | .ok bundle =>
    if req.hmac.isEmpty then (server.storage,invalidArgument "hmac cannot be empty")
    else if req.csrDer.isEmpty then (server.storage,invalidArgument "csr_der cannot be empty")
    else match (server.storage .pendingActivations).toList.foldlM (scanStep server.now req.hmac) ⟨none,[]⟩ with
      | .error status => (server.storage,.error status)
      | .ok scan =>
        let swept := commit server.storage (scan.expired.map fun key => .remove .pendingActivations key)
        match scan.matched with
        | none => (swept,permissionDenied "no matching pending activation for this HMAC proof")
        | some (nonceKey,record) =>
          match usableEk swept server.now record.ekFingerprint with
          | .error status => (swept,.error status)
          | .ok _ => (commit swept [.remove .pendingActivations nonceKey],server.verifyProof bundle record req)

end AttestationServer

/-- The first proposal of an accepted proof. The certificate is handed out once it has committed. -/
def Activation.activate (activation : Activation) : AuditedCommand :=
  .system (.activateNodeEk activation.ekFingerprint activation.spiffeId)

theorem usableEk_ok {now : Int64} (ok : usableEk storage now fingerprint = .ok record) :
    (∃ bytes, (storage .nodeEks)[asBytes fingerprint]? = some bytes ∧ fromBytes bytes = .ok record) ∧
      record.state ≠ .revoked := by
  unfold usableEk at ok
  split at ok
  · cases ok
  case h_2 bytes stored =>
    split at ok
    · cases ok
    case h_2 found decoded =>
      split at ok
      · cases ok
      case isFalse active =>
        split at ok
        · cases ok
        · cases ok
          exact ⟨⟨bytes,stored,decoded⟩,active⟩

theorem verifyProof_ok (ok : server.verifyProof bundle record req = .ok activation) :
    activation.ekFingerprint = record.ekFingerprint ∧ extractSpiffeIdFromCsr req.csrDer = .ok activation.spiffeId ∧
      signCsr server.now req.csrDer bundle server.svidTtlSecs = .ok activation.certDer := by
  obtain ⟨spiffeId,extracted,ok⟩ := bind_ok ok
  simp only at ok
  split at ok
  all_goals
    obtain ⟨submittedPcrs,_,ok⟩ := bind_ok ok
    obtain ⟨_,_,ok⟩ := bind_ok ok
    obtain ⟨_,_,ok⟩ := bind_ok ok
    obtain ⟨expectedPcrs,_,ok⟩ := bind_ok ok
    obtain ⟨_,_,ok⟩ := bind_ok ok
    obtain ⟨_,_,ok⟩ := bind_ok ok
    obtain ⟨certDer,signed,ok⟩ := bind_ok ok
    cases ok
    exact ⟨rfl,mapError_ok.mp extracted,mapError_ok.mp signed⟩

theorem checkProof_ok (ok : server.checkProof req = (storage,.ok activation)) : ∃ bundle ek,
      usableEk server.storage server.now activation.ekFingerprint = .ok ek ∧
      extractSpiffeIdFromCsr req.csrDer = .ok activation.spiffeId ∧
      signCsr server.now req.csrDer bundle server.svidTtlSecs = .ok activation.certDer := by
  unfold AttestationServer.checkProof at ok
  split at ok
  · cases ok
  case h_2 bundle _ =>
    split at ok
    · cases ok
    split at ok
    · cases ok
    split at ok
    · cases ok
    case h_2 scan _ =>
      simp only at ok
      split at ok
      · cases ok
      case h_2 nonceKey record _ =>
        split at ok
        · cases ok
        case h_2 ek usable =>
          obtain ⟨fingerprint,extracted,signed⟩ := verifyProof_ok (Prod.mk.inj ok).2
          have swept : commit server.storage (scan.expired.map fun key => .remove .pendingActivations key) .nodeEks =
              server.storage .nodeEks := by
            apply commit_frame
            intro write member
            obtain ⟨key,_,rfl⟩ := mem_map.mp member
            simp
          refine ⟨bundle,ek,?_,extracted,signed⟩
          rw [fingerprint]
          simpa only [usableEk,swept] using usable

end FleetosControl
