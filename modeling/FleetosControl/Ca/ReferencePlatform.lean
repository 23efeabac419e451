import FleetosControl.Ca.KeyIssuance

/-! The reference platform: fingerprints are the hex of the key, identities are taken apart at their
slashes, and a CSR is the list of its URI names. -/
namespace FleetosControl.Reference
open Wire Wire.Codec

def hexDigit (n : Nat) : Char := if n < 10 then Char.ofNat (48 + n) else Char.ofNat (87 + n)

def hex (bytes : Bytes) : String :=
  String.ofList (bytes.flatMap fun byte => [hexDigit (byte.toNat / 16),hexDigit (byte.toNat % 16)])

theorem hexDigit_injective : ∀ a < 16, ∀ b < 16, hexDigit a = hexDigit b → a = b := by decide

theorem hex_injective : Function.Injective hex := by
  intro left right same
  replace same := String.ofList_injective same
  induction left generalizing right with
  | nil =>
    cases right with
    | nil => rfl
    | cons => simp at same
  | cons a left ih =>
    cases right with
    | nil => simp at same
    | cons b right =>
      simp only [List.flatMap_cons,List.cons_append,List.nil_append,List.cons.injEq] at same
      obtain ⟨high,low,rest⟩ := same
      have boundA := a.toNat_lt
      have boundB := b.toNat_lt
      have highs := hexDigit_injective _ (by omega) _ (by omega) high
      have lows := hexDigit_injective _ (by omega) _ (by omega) low
      have bytes : a = b := UInt8.toNat_inj.mp (by omega)
      rw [bytes,ih rest]

def spkiOf : Bytes → Except String Bytes
  | 48::spki => .ok spki
  | _ => .error "cert parse failed: unexpected tag"

instance attestationCore : AttestationCore where
  ofEkPub := hex
  ofEkCert cert := (spkiOf cert).map hex
  extractSpkiFromCert := spkiOf
  ofEkCert_iff cert fingerprint := by cases spkiOf cert <;> simp [Except.map]
  validateEkCertChain _ cert := (spkiOf cert).map fun _ => ()
  makeCredential ek _ secret _ := .ok (secret,ek)
  activateCredential key credential := if key = credential.2 then some credential.1 else none
  activate_make ek ak secret seed credential made key := by
    cases made
    rfl

def urisOf (csr : Bytes) : Except String (List String) :=
  match (list string).decode csr with
  | some (uris,_) => .ok uris
  | none => .error "invalid CSR"

def namesOf (der : Bytes) : List SanType :=
  match urisOf der with
  | .ok uris => uris.map .uri
  | .error _ => []

instance proofCore : ProofCore where
  KeyPair := String
  PublicKey := Bytes
  Issuer := Unit
  fromDer csr := (urisOf csr).map fun uris => (⟨uris.map .uri,0,0,[]⟩,csr)
  issuer _ _ := .ok ()
  signedBy params key _ := if params.subjectAltNames = namesOf key then .ok key else .error "unsupported SAN"
  subjectAltNames := namesOf
  signedBy_names params key _ certDer signed := by
    split at signed
    case isTrue same => rw [← Except.ok.inj signed,same]
    case isFalse => cases signed
  degradedExtension degraded := [if degraded then 1 else 0]
  extractOrdinal _ := none
  keyedHash key message := key ++ message
  verifyQuoteStructure quote nonce := quote.nonce = nonce && !quote.signature.isEmpty
  verifyQuoteSignature quote := quote.signature = quote.attestationKeyPub ++ quote.quoteBytes
  verifyPcrPolicy submitted expected := expected.all submitted.contains
  verifyPcrBinding quote pcrs := quote = pcrs.flatMap (·.digest)

def dataControl : TrustBundle := ⟨"data.example.internal","key",[],"",none⟩

def pendingActivationRecord : Codec PendingActivationRecord :=
  (string.pair (bytes.pair (bytes.pair (bytes.pair (i64.pair i64))))).iso
    (fun ⟨a,b,c,d,e,f⟩ => (a,b,c,d,e,f)) (fun (a,b,c,d,e,f) => ⟨a,b,c,d,e,f⟩) (fun _ => rfl)

instance activationFormats : ActivationFormats where
  pendingActivationRecord := postcard pendingActivationRecord
  pcrValues := postcard (list pcrValue)

def tpmQuote : Codec TpmQuote :=
  (bytes.pair (bytes.pair (bytes.pair ((list pcrValue).pair bytes)))).iso
    (fun ⟨a,b,c,d,e⟩ => (a,b,c,d,e)) (fun (a,b,c,d,e) => ⟨a,b,c,d,e⟩) (fun _ => rfl)

instance tpmQuotes : Postcard TpmQuote := postcard tpmQuote

def agentId : String := "spiffe://data.example.internal/ns/system/node/agent-1"

def agentRegistration : AuditedCommand :=
  ⟨.registerNodeEk ⟨hex [1,2,3],[1,2,3],[],agentId,1700000000,some 1700003600,.pending⟩,
    some ((adminServer Disk.empty).buildAuditContext fleetctlProxy "req-1" (hex [1,2,3]))⟩

def agentNode : Node := (apply (boot Disk.empty) [⟨logIdAt 1,.normal agentRegistration⟩]).1

theorem agentNode_applied :
    applyEntry (boot Disk.empty) ⟨logIdAt 1,.normal agentRegistration⟩ = .ok (agentNode,⟨1⟩) := rfl

theorem agentNode_registered : Registered agentNode.disk := by
  apply Registered.applied .fresh _ agentNode_applied
  intro audited record normal _
  cases normal
  exact ⟨adminServer Disk.empty,fleetctlProxy,"req-1",⟨[],[1,2,3],agentId,0⟩,rfl⟩

def secureServer (storage : Disk) : AttestationServer := ⟨storage,.secure,some dataControl,86400,1700000060⟩

def draw : ActivationDraw := ⟨.ok (List.replicate 32 5),List.replicate 32 6,[]⟩

def kindName : IdKind → String
  | .sa => "sa"
  | .node => "node"
  | .router => "router"
  | .gateway => "gateway"
  | .control => "control"
  | .ctrl => "ctrl"
  | .operator => "operator"

def spiffeText (domain ns : String) (kind : IdKind) (name : String) : String :=
  "spiffe://" ++ domain ++ "/ns/" ++ ns ++ "/" ++ kindName kind ++ "/" ++ name

theorem spiffeText_scheme (domain ns : String) (kind : IdKind) (name : String) :
    (asBytes "spiffe://").isPrefixOf (asBytes (spiffeText domain ns kind name)) = true := by
  unfold spiffeText
  rw [String.append_assoc,String.append_assoc,String.append_assoc,String.append_assoc,String.append_assoc,
    String.append_assoc,asBytes_append]
  exact List.isPrefixOf_iff_prefix.mpr (List.prefix_append _ _)

-- Parts with slashes of their own would read back as another kind.
def newIdentity (domain ns : String) (kind : IdKind) (name : String) : Identity :=
  if kindOf (spiffeText domain ns kind name) = kind then ⟨spiffeText domain ns kind name,spiffeText_scheme ..⟩
  else ⟨spiffeText "invalid" "invalid" kind "invalid",spiffeText_scheme ..⟩

instance spiffeParts : SpiffeParts where
  trustDomain id := ((id.1.toList.splitOn '/')[2]?.map String.ofList).getD ""
  new := newIdentity
  kind_new domain ns kind name := by
    change kindOf (newIdentity domain ns kind name).1 = kind
    unfold newIdentity
    split
    case isTrue same => exact same
    case isFalse => cases kind <;> decide +kernel

def delegatedSigningKey : Codec DelegatedSigningKey :=
  (string.pair (string.pair ((option u32).pair (u64.pair (u64.pair (bytes.pair (bytes.pair (option string)))))))).iso
    (fun ⟨a,b,c,d,e,f,g,h⟩ => (a,b,c,d,e,f,g,h)) (fun (a,b,c,d,e,f,g,h) => ⟨a,b,c,d,e,f,g,h⟩)
    (fun _ => rfl)

instance delegatedKeyCore : DelegatedKeyCore where
  toPostcard := postcard delegatedSigningKey
  WorkloadRole := String
  generate := .ok "key"
  serializeDer _ := []
  signedBy params _ _ := .ok (asBytes params.commonName)
  nowUtc := 1700000000
  tryFrom := .ok
  asStr := id
  asStr_tryFrom _ _ same := (Except.ok.inj same).symm

def svidGrantRecord : Codec SvidGrantRecord :=
  (string.pair (byte.pair (i64.pair (i64.pair bytes)))).iso
    (fun ⟨a,b,c,d,e⟩ => (a,b,c,d,e)) (fun (a,b,c,d,e) => ⟨a,b,c,d,e⟩) (fun _ => rfl)

instance svidGrants : Postcard SvidGrantRecord := postcard svidGrantRecord

end FleetosControl.Reference
