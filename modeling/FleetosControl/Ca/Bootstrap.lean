import FleetosControl.Ca.ReferencePlatform
import FleetosControl.Secrets.History
import FleetosControl.Tls.Listener

/-! The root CAs of a control node over its restarts. Join mode loads the persisted roots; bootstrap
mode writes new ones over them. -/
namespace FleetosControl
open Wire Trace

def OffsetDateTime.fromUnixTimestamp (timestamp : Int64) : Except String OffsetDateTime :=
  if inRange : -377705116800 ≤ timestamp ∧ timestamp ≤ 253402300799 then .ok ⟨timestamp,inRange⟩
  else .error "timestamp must be in the range -377705116800..=253402300799"

@[simp] theorem OffsetDateTime.fromUnixTimestamp_unixTimestamp (time : OffsetDateTime) :
    fromUnixTimestamp time.unixTimestamp = .ok time := by
  simp [fromUnixTimestamp,time.inRange]

/-- rcgen, and the validation of `fleetos-core`. An accepted certificate is accepted until it expires. -/
class RootCore [CertificateCore] where
  serializePem : KeyPair → String
  fromPem : String → Except String KeyPair
  fromPem_serializePem : ∀ key, fromPem (serializePem key) = .ok key
  -- the DER and the PEM of `self_signed`, on the parameters of `generate_root_ca`
  selfSigned : (trustDomain : String) → (notBefore : Int64) → KeyPair → Except String (Bytes × String)
  -- `signed_by`, under the issuer that the certificate and the key of a root make
  signedBy : CertificateParams → (publicKey : Bytes) → (caKey : KeyPair) → (caCertDer : Bytes) → Except String Bytes
  validateSvid : (now : Int64) → (certDer : Bytes) → (trustDomain : String) → (roots : List Bytes) → Bool
  notAfter : Bytes → Int64
  validateSvid_until : ∀ {issuedAt now certDer trustDomain roots}, validateSvid issuedAt certDer trustDomain roots = true →
    issuedAt ≤ now → now ≤ notAfter certDer → validateSvid now certDer trustDomain roots = true

attribute [simp] RootCore.fromPem_serializePem

structure PreviousRootRecord where
  keyPem : String
  certDer : Bytes
  certPem : String
  supersededAtUnix : Int64

structure TrustBundleRecord where
  trustDomain : String
  currentKeyPem : String
  currentCertDer : Bytes
  currentCertPem : String
  previous : Option PreviousRootRecord

section
variable [CertificateCore] [RootCore]

structure RootDraw where
  keyPair : Except String KeyPair
  now : Int64
  envelope : Drawn

def PreviousRoot.toRecord (root : PreviousRoot) : PreviousRootRecord :=
  ⟨RootCore.serializePem root.key,root.certDer,root.certPem,root.supersededAt.unixTimestamp⟩

def PreviousRoot.fromRecord (record : PreviousRootRecord) : Except String PreviousRoot := do
  let key ← (RootCore.fromPem record.keyPem).mapError ("rcgen error: " ++ ·)
  let supersededAt ← (OffsetDateTime.fromUnixTimestamp record.supersededAtUnix).mapError
    ("trust bundle error: invalid timestamp: " ++ ·)
  pure ⟨key,record.certDer,record.certPem,supersededAt⟩

theorem PreviousRoot.fromRecord_toRecord (root : PreviousRoot) : fromRecord root.toRecord = .ok root := by
  simp [fromRecord,toRecord,Except.mapError,bind,Except.bind,pure,Except.pure]

namespace TrustBundle

def generateRoot (trustDomain : String) (draw : RootDraw) : Except String TrustBundle := do
  let keyPair ← draw.keyPair.mapError ("key generation error: " ++ ·)
  let (certDer,certPem) ← (RootCore.selfSigned trustDomain draw.now keyPair).mapError ("rcgen error: " ++ ·)
  pure ⟨trustDomain,keyPair,certDer,certPem,none⟩

def roots (bundle : TrustBundle) : List Bytes := bundle.currentCertDer :: (bundle.previous.map (·.certDer)).toList

def validateSvid (bundle : TrustBundle) (now : Int64) (certDer : Bytes) : Bool :=
  RootCore.validateSvid now certDer bundle.trustDomain bundle.roots

def toRecord (bundle : TrustBundle) : TrustBundleRecord where
  trustDomain := bundle.trustDomain
  currentKeyPem := RootCore.serializePem bundle.currentKey
  currentCertDer := bundle.currentCertDer
  currentCertPem := bundle.currentCertPem
  previous := bundle.previous.map (·.toRecord)

def fromRecord (record : TrustBundleRecord) : Except String TrustBundle := do
  let currentKey ← (RootCore.fromPem record.currentKeyPem).mapError ("rcgen error: " ++ ·)
  let previous ← match record.previous with
    | some previous => (PreviousRoot.fromRecord previous).map some
    | none => .ok none
  pure ⟨record.trustDomain,currentKey,record.currentCertDer,record.currentCertPem,previous⟩

theorem fromRecord_toRecord (bundle : TrustBundle) : fromRecord bundle.toRecord = .ok bundle := by
  obtain ⟨trustDomain,currentKey,certDer,certPem,previous⟩ := bundle
  cases previous with
  | none => simp [fromRecord,toRecord,Except.mapError,bind,Except.bind,pure,Except.pure]
  | some root =>
    have read := PreviousRoot.fromRecord_toRecord root
    simp [fromRecord,toRecord,read,Except.mapError,Except.map,bind,Except.bind,pure,Except.pure]

theorem generateRoot_domain {trustDomain draw bundle} (ok : generateRoot trustDomain draw = .ok bundle) :
    bundle.trustDomain = trustDomain := by
  obtain ⟨keyPair,_,ok⟩ := bind_ok ok
  obtain ⟨certificate,_,ok⟩ := bind_ok ok
  cases ok
  rfl

end TrustBundle

structure CaService where
  dataControl : TrustBundle
  admin : TrustBundle

def CaService.bundle (service : CaService) : TrustDomainRole → TrustBundle
  | .dataControl => service.dataControl
  | .admin => service.admin

end

def bundleKey (trustDomain : String) : Bytes := asBytes ("bundle:" ++ trustDomain)

theorem bundleKey_inj (same : bundleKey left = bundleKey right) : left = right := by
  have texts := asBytes_injective same
  exact String.append_right_inj _ |>.mp texts

section
variable [CertificateCore] [RootCore] [Aead] [Postcard EnvelopeSecret] [Postcard TrustBundleRecord]

namespace CaService

def persistBundle (masterKey : FileMasterKey) (drawn : Drawn) (bundle : TrustBundle) (keyspace : Contents) :
    Except String Contents := do
  let serialized := toAllocvec bundle.toRecord
  let envelope ← (encryptAtRest masterKey drawn serialized).mapError
    fun e => "trust bundle error: encryption failed: " ++ e.display
  pure (keyspace.insert (bundleKey bundle.trustDomain) (toAllocvec envelope))

def loadBundle (masterKey : FileMasterKey) (trustDomain : String) (keyspace : Contents) : Except String TrustBundle :=
  match keyspace[bundleKey trustDomain]? with
  | none => .error ("trust bundle error: trust bundle not found for " ++ trustDomain)
  | some envelopeBytes => do
    let envelope ← (fromBytes (α := EnvelopeSecret) envelopeBytes).mapError ("serialization error: " ++ ·)
    let decrypted ← (decryptAtRest masterKey envelope).mapError
      fun e => "trust bundle error: decryption failed: " ++ e.display
    let record ← (fromBytes (α := TrustBundleRecord) decrypted).mapError ("serialization error: " ++ ·)
    TrustBundle.fromRecord record

/-- The roots are written one after the other, so a failure of the second leaves the first behind. -/
def bootstrap (domains : TrustDomainConfig) (masterKey : FileMasterKey) (dataControl admin : RootDraw)
    (keyspace : Contents) : Contents × Except String CaService :=
  match TrustBundle.generateRoot domains.dataControl dataControl with
  | .error e => (keyspace,.error e)
  | .ok dataRoot =>
    match TrustBundle.generateRoot domains.admin admin with
    | .error e => (keyspace,.error e)
    | .ok adminRoot =>
      match persistBundle masterKey dataControl.envelope dataRoot keyspace with
      | .error e => (keyspace,.error e)
      | .ok first =>
        match persistBundle masterKey admin.envelope adminRoot first with
        | .error e => (first,.error e)
        | .ok second => (second,.ok ⟨dataRoot,adminRoot⟩)

def load (domains : TrustDomainConfig) (masterKey : FileMasterKey) (keyspace : Contents) : Except String CaService := do
  let dataControl ← loadBundle masterKey domains.dataControl keyspace
  let admin ← loadBundle masterKey domains.admin keyspace
  pure ⟨dataControl,admin⟩

variable {masterKey : FileMasterKey} {before after : Contents} {domains : TrustDomainConfig} {service : CaService}

theorem persistBundle_ok {drawn bundle} (ok : persistBundle masterKey drawn bundle before = .ok after) :
    loadBundle masterKey bundle.trustDomain after = .ok bundle ∧ ∀ trustDomain, trustDomain ≠ bundle.trustDomain →
        loadBundle masterKey trustDomain after = loadBundle masterKey trustDomain before := by
  obtain ⟨envelope,encrypted,ok⟩ := bind_ok ok
  cases ok
  have decrypted := decryptAtRest_encryptAtRest (mapError_ok.mp encrypted)
  constructor
  · simp [loadBundle,decrypted,TrustBundle.fromRecord_toRecord,Except.mapError,bind,Except.bind]
  · intro trustDomain other
    have apart : bundleKey bundle.trustDomain ≠ bundleKey trustDomain := fun same => other (bundleKey_inj same).symm
    simp [loadBundle,Std.ExtTreeMap.getElem?_insert,apart]

theorem load_bootstrap (distinct : domains.dataControl ≠ domains.admin) {dataControl admin}
    (ok : bootstrap domains masterKey dataControl admin before = (after,.ok service)) :
    load domains masterKey after = .ok service := by
  unfold bootstrap at ok
  split at ok
  case h_1 => cases ok
  case h_2 dataRoot generated =>
    split at ok
    case h_1 => cases ok
    case h_2 adminRoot second =>
      split at ok
      case h_1 => cases ok
      case h_2 first persisted =>
        split at ok
        case h_1 => cases ok
        case h_2 last again =>
          cases ok
          have dataDomain := TrustBundle.generateRoot_domain generated
          have adminDomain := TrustBundle.generateRoot_domain second
          obtain ⟨readData,_⟩ := persistBundle_ok persisted
          obtain ⟨readAdmin,others⟩ := persistBundle_ok again
          have kept := others dataRoot.trustDomain (by rw [dataDomain,adminDomain]; exact distinct)
          rw [readData,dataDomain] at kept
          rw [adminDomain] at readAdmin
          simp [load,kept,readAdmin,bind,Except.bind,pure,Except.pure]

theorem load_exists (ok : load domains masterKey keyspace = .ok service) :
    keyspace[bundleKey domains.dataControl]?.isSome := by
  obtain ⟨bundle,loaded,_⟩ := bind_ok ok
  unfold loadBundle at loaded
  split at loaded
  case h_1 => cases loaded
  case h_2 bytes found => simp [found]

end CaService

inductive ClusterMode where
  | bootstrap | join
  deriving DecidableEq

structure Boot where
  mode : ClusterMode
  masterKey : FileMasterKey
  dataControl : RootDraw
  admin : RootDraw

structure IssuedSvid where
  role : TrustDomainRole
  certDer : Bytes
  issuedAt : Int64

/-- The key file and the keyspace last over restarts, beside the CA of the running process. -/
structure ControlNode where
  masterKeyFile : Option FileMasterKey
  trustBundles : Contents
  ca : Option CaService
  issued : List IssuedSvid

def caBundleExists (domains : TrustDomainConfig) (trustBundles : Contents) : Bool :=
  trustBundles[bundleKey domains.dataControl]?.isSome

def caPhase (domains : TrustDomainConfig) (masterKey : FileMasterKey) (boot : Boot) (trustBundles : Contents) :
    Contents × Except String (Option CaService) :=
  match boot.mode with
  | .bootstrap =>
    let (trustBundles,service) := CaService.bootstrap domains masterKey boot.dataControl boot.admin trustBundles
    (trustBundles,service.map some)
  | .join =>
    if caBundleExists domains trustBundles then (trustBundles,(CaService.load domains masterKey trustBundles).map some)
    else (trustBundles,.ok none)

/-- An error ends the process; what it has written stays. -/
def ControlNode.start (domains : TrustDomainConfig) (boot : Boot) (node : ControlNode) : ControlNode :=
  let masterKey := node.masterKeyFile.getD boot.masterKey
  let phase := caPhase domains masterKey boot node.trustBundles
  { node with
    masterKeyFile := some masterKey
    trustBundles := phase.1
    ca := phase.2.toOption.join }

inductive NodeEvent where
  | started (boot : Boot)
  | stopped
  | issued (svid : IssuedSvid)

/-- A process may end without being stopped. What the certificates say is left open. -/
inductive NodeStep (domains : TrustDomainConfig) : ControlNode → NodeEvent → ControlNode → Prop where
  | started (node : ControlNode) (boot : Boot) : NodeStep domains node (.started boot) (node.start domains boot)
  | stopped (node : ControlNode) : NodeStep domains node .stopped { node with ca := none }
  | issued {node : ControlNode} {service} {svid : IssuedSvid} {params publicKey} : node.ca = some service →
      RootCore.signedBy params publicKey (service.bundle svid.role).currentKey (service.bundle svid.role).currentCertDer =
        .ok svid.certDer →
      (service.bundle svid.role).validateSvid svid.issuedAt svid.certDer = true →
      NodeStep domains node (.issued svid) { node with issued := svid :: node.issued }

/-- Bootstrap mode is for a node that has no roots yet. -/
def NodeEvent.Fresh (domains : TrustDomainConfig) (node : ControlNode) : NodeEvent → Prop
  | .started boot => boot.mode = .bootstrap → caBundleExists domains node.trustBundles = false
  | _ => True

def ControlNode.Loads (domains : TrustDomainConfig) (node : ControlNode) (service : CaService) : Prop :=
  ∃ masterKey, node.masterKeyFile = some masterKey ∧ CaService.load domains masterKey node.trustBundles = .ok service

structure Lasting (domains : TrustDomainConfig) (node : ControlNode) : Prop where
  running : ∀ service, node.ca = some service → node.Loads domains service
  issued : ∀ svid ∈ node.issued, ∃ service, node.Loads domains service ∧
    (service.bundle svid.role).validateSvid svid.issuedAt svid.certDer = true

section
variable {domains : TrustDomainConfig} {masterKey : FileMasterKey} {boot : Boot} {service : CaService}

theorem caPhase_join (joins : boot.mode = .join) (trustBundles : Contents) :
    (caPhase domains masterKey boot trustBundles).1 = trustBundles := by
  unfold caPhase
  rw [joins]
  dsimp only
  split <;> rfl

theorem caPhase_loads (distinct : domains.dataControl ≠ domains.admin)
    (ok : (caPhase domains masterKey boot before).2 = .ok (some service)) :
    CaService.load domains masterKey (caPhase domains masterKey boot before).1 = .ok service := by
  cases mode : boot.mode with
  | join =>
    rw [caPhase_join mode]
    unfold caPhase at ok
    rw [mode] at ok
    dsimp only at ok
    split at ok
    case isFalse => cases ok
    case isTrue =>
      cases loaded : CaService.load domains masterKey before with
      | error e =>
        rw [loaded] at ok
        cases ok
      | ok found =>
        rw [loaded] at ok
        cases ok
        rfl
  | bootstrap =>
    unfold caPhase at ok ⊢
    rw [mode] at ok ⊢
    dsimp only at ok ⊢
    cases made : CaService.bootstrap domains masterKey boot.dataControl boot.admin before with
    | mk after outcome =>
      rw [made] at ok
      cases outcome with
      | error e => cases ok
      | ok found =>
        cases ok
        exact CaService.load_bootstrap distinct made

theorem start_loads (distinct : domains.dataControl ≠ domains.admin) {node : ControlNode}
    (runs : (node.start domains boot).ca = some service) : (node.start domains boot).Loads domains service := by
  refine ⟨node.masterKeyFile.getD boot.masterKey,rfl,?_⟩
  apply caPhase_loads distinct
  simp only [ControlNode.start,Option.join_eq_some_iff] at runs
  exact toOption_eq_some.mp runs

theorem lasting_step (distinct : domains.dataControl ≠ domains.admin) (step : NodeStep domains before event after)
    (fresh : event.Fresh domains before) (lasting : Lasting domains before) :
    Lasting domains after := by
  cases step with
  | stopped => exact ⟨by simp,lasting.issued⟩
  | @issued service svid params publicKey runs signed valid =>
    refine ⟨lasting.running,forall_mem_cons.mpr ⟨?_,lasting.issued⟩⟩
    exact ⟨service,lasting.running service runs,valid⟩
  | started boot =>
    refine ⟨fun service runs => start_loads distinct runs,?_⟩
    intro svid member
    obtain ⟨service,⟨masterKey,file,loaded⟩,valid⟩ := lasting.issued svid member
    cases mode : boot.mode with
    | join =>
      refine ⟨service,⟨masterKey,?_,?_⟩,valid⟩
      · simp [ControlNode.start,file]
      · rw [ControlNode.start,caPhase_join mode]
        exact loaded
    | bootstrap =>
      -- with roots in the keyspace there would be no bootstrap, and without them nothing has been issued
      have there := CaService.load_exists loaded
      have blank := fresh mode
      rw [caBundleExists,there] at blank
      cases blank

theorem issued_svids_last (distinct : domains.dataControl ≠ domains.admin) {masterKeyFile : Option FileMasterKey}
    {trustBundles : Contents} {trace : List (Transition ControlNode NodeEvent)} {final : ControlNode}
    (run : Run (NodeStep domains) ⟨masterKeyFile,trustBundles,none,[]⟩ trace final)
    (fresh : ∀ transition ∈ trace, transition.label.Fresh domains transition.before) :
    ∀ svid ∈ final.issued, ∀ service, final.ca = some service →
      ∀ now, svid.issuedAt ≤ now → now ≤ RootCore.notAfter svid.certDer →
        (service.bundle svid.role).validateSvid now svid.certDer = true := by
  have start : Lasting domains ⟨masterKeyFile,trustBundles,none,[]⟩ := ⟨by simp,by simp⟩
  have lasting := (run.invariant (Lasting domains) (fun transition => transition.label.Fresh domains transition.before)
    (fun _ _ _ => lasting_step distinct) start fresh).2
  intro svid member service runs now later unexpired
  obtain ⟨found,⟨masterKey,file,loaded⟩,valid⟩ := lasting.issued svid member
  obtain ⟨same,again,reloaded⟩ := lasting.running service runs
  obtain rfl : same = masterKey := Option.some.inj (again.symm.trans file)
  obtain rfl : found = service := Except.ok.inj (loaded.symm.trans reloaded)
  exact RootCore.validateSvid_until valid later unexpired

end

end

namespace Reference

def previousRootRecord : Codec PreviousRootRecord :=
  (Codec.string.pair (Codec.bytes.pair (Codec.string.pair Codec.i64))).iso
    (fun ⟨a,b,c,d⟩ => (a,b,c,d)) (fun (a,b,c,d) => ⟨a,b,c,d⟩) (fun _ => rfl)

def trustBundleRecord : Codec TrustBundleRecord :=
  (Codec.string.pair (Codec.string.pair (Codec.bytes.pair (Codec.string.pair (Codec.option previousRootRecord))))).iso
    (fun ⟨a,b,c,d,e⟩ => (a,b,c,d,e)) (fun (a,b,c,d,e) => ⟨a,b,c,d,e⟩) (fun _ => rfl)

instance trustBundleRecords : Postcard TrustBundleRecord := postcard trustBundleRecord

def svidCertificate : Codec (Int64 × Int64 × Bytes) := Codec.i64.pair (Codec.i64.pair Codec.bytes)

def windowOf (certDer : Bytes) : Int64 × Int64 × Bytes :=
  match svidCertificate.decode certDer with
  | some (window,_) => window
  | none => (0,-1,[])

instance rootCore : RootCore where
  serializePem key := key
  fromPem pem := .ok pem
  fromPem_serializePem _ := rfl
  selfSigned trustDomain _ key := .ok (asBytes (trustDomain ++ "/" ++ key),key)
  signedBy params _ _ caCertDer := .ok (svidCertificate.encode (params.notBefore,params.notAfter,caCertDer))
  validateSvid now certDer _ roots :=
    (windowOf certDer).1 ≤ now && now ≤ (windowOf certDer).2.1 && roots.contains (windowOf certDer).2.2
  notAfter certDer := (windowOf certDer).2.1
  validateSvid_until := by
    intro issuedAt now certDer trustDomain roots valid later unexpired
    simp only [Bool.and_eq_true,decide_eq_true_eq] at valid ⊢
    obtain ⟨⟨begun,_⟩,trusted⟩ := valid
    exact ⟨⟨Int64.le_trans begun later,unexpired⟩,trusted⟩

end Reference

open Reference

def caDomains : TrustDomainConfig := ⟨"data.example.internal","admin.example.internal"⟩

def bootIn (mode : ClusterMode) (dataKey adminKey : String) : Boot :=
  ⟨mode,masterKey,⟨.ok dataKey,1700000000,drawn⟩,⟨.ok adminKey,1700000000,drawn⟩⟩

def blankControl : ControlNode := ⟨none,∅,none,[]⟩

def firstStart : ControlNode := blankControl.start caDomains (bootIn .bootstrap "k1" "k2")

def dayParams : CertificateParams := ⟨[],1700000000,1700086400,[]⟩

def dayCertificate : Bytes := svidCertificate.encode (1700000000,1700086400,asBytes "data.example.internal/k1")

def daySvid : IssuedSvid := ⟨.dataControl,dayCertificate,1700000000⟩

def certifyingControl : ControlNode := { firstStart with issued := [daySvid] }

def haltedControl : ControlNode := { certifyingControl with ca := none }

def restartTrace (boot : Boot) : List (Transition ControlNode NodeEvent) :=
  [⟨blankControl,.started (bootIn .bootstrap "k1" "k2"),firstStart⟩,⟨firstStart,.issued daySvid,certifyingControl⟩,
    ⟨certifyingControl,.stopped,haltedControl⟩,
    ⟨haltedControl,.started boot,haltedControl.start caDomains boot⟩]

theorem restartTrace_run (boot : Boot) :
    Run (NodeStep caDomains) blankControl (restartTrace boot) (haltedControl.start caDomains boot) := by
  have up : firstStart.ca.map (fun service => (service.dataControl.currentCertDer,service.dataControl.validateSvid 1700000000
      dayCertificate)) = some (asBytes "data.example.internal/k1",true) := by decide +kernel
  obtain ⟨service,runs,fields⟩ := map_eq_some_iff.mp up
  obtain ⟨root,valid⟩ := Prod.mk.inj fields
  have signed : RootCore.signedBy dayParams [] (service.bundle daySvid.role).currentKey
      (service.bundle daySvid.role).currentCertDer = .ok dayCertificate := by
    change Except.ok (svidCertificate.encode (1700000000,1700086400,service.dataControl.currentCertDer)) = _
    rw [root]
    rfl
  apply Run.cons (.started blankControl _)
  apply Run.cons (.issued runs signed valid)
  apply Run.cons (.stopped certifyingControl)
  apply Run.cons (.started haltedControl boot)
  exact .nil _

theorem join_restart_trusts : (haltedControl.start caDomains (bootIn .join "k3" "k4")).ca.isSome = true ∧
    ∀ service, (haltedControl.start caDomains (bootIn .join "k3" "k4")).ca = some service →
      service.dataControl.validateSvid 1700000200 dayCertificate = true := by
  have fresh : ∀ transition ∈ restartTrace (bootIn .join "k3" "k4"),
      transition.label.Fresh caDomains transition.before := by
    simp [restartTrace,NodeEvent.Fresh,bootIn,blankControl,caBundleExists]
  refine ⟨by decide +kernel,?_⟩
  intro service runs
  exact issued_svids_last (by decide) (restartTrace_run (bootIn .join "k3" "k4")) fresh daySvid mem_cons_self service
    runs 1700000200 (by decide) (by decide +kernel)

/-- The node is stopped and started again in the mode it was set up in. -/
theorem bootstrap_restart_orphans : Run (NodeStep caDomains) blankControl (restartTrace (bootIn .bootstrap "k3" "k4"))
      (haltedControl.start caDomains (bootIn .bootstrap "k3" "k4")) ∧
    daySvid ∈ (haltedControl.start caDomains (bootIn .bootstrap "k3" "k4")).issued ∧
    daySvid.issuedAt ≤ 1700000200 ∧ 1700000200 ≤ RootCore.notAfter daySvid.certDer ∧
    ∃ service, (haltedControl.start caDomains (bootIn .bootstrap "k3" "k4")).ca = some service ∧
      (service.bundle daySvid.role).validateSvid 1700000200 daySvid.certDer = false := by
  have up : (haltedControl.start caDomains (bootIn .bootstrap "k3" "k4")).ca.map
      (fun service => service.dataControl.validateSvid 1700000200 dayCertificate) = some false := by decide +kernel
  obtain ⟨service,runs,refused⟩ := map_eq_some_iff.mp up
  exact ⟨restartTrace_run _,mem_cons_self,by decide,by decide +kernel,service,runs,refused⟩

end FleetosControl
