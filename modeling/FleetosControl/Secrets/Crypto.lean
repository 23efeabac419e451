import FleetosControl.Raft.ApplyCommand

/-! Secrets at rest, sealed under keys of their own that the master key wraps. The access list is
read before the envelope is opened. -/
namespace FleetosControl
open Wire

inductive SecretError where
  | accessDenied (secretKey spiffeId : String)
  | notFound (secretKey : String)
  | invalidDekLength (length : Nat)
  | invalidNonceLength (length : Nat)
  | encryption (reason : String)
  | decryption (reason : String)
  | serialization (reason : String)
  deriving DecidableEq

def SecretError.display : SecretError → String
  | .accessDenied secretKey spiffeId => "access denied: " ++ spiffeId ++ " is not authorized for secret " ++ secretKey
  | .notFound secretKey => "secret not found: " ++ secretKey
  | .invalidDekLength length => "invalid DEK length: expected 32, got " ++ toString length
  | .invalidNonceLength length => "invalid nonce length: expected 12, got " ++ toString length
  | .encryption reason => "encryption error: " ++ reason
  | .decryption reason => "decryption error: " ++ reason
  | .serialization reason => "serialization error: " ++ reason

section
variable [FleetosCore] [Formats]

namespace SecretAcl

def isAuthorized (acl : SecretAcl) (secretKey : String) (spiffeId : SpiffeId) : Bool :=
  acl.entries[secretKey]?.any fun set => set.contains (display spiffeId)

def authorize (acl : SecretAcl) (secretKey : String) (spiffeId : SpiffeId) : Except SecretError Unit :=
  if acl.isAuthorized secretKey spiffeId then .ok () else .error (.accessDenied secretKey (display spiffeId))

end SecretAcl

def loadAcl (storage : Disk) (secretKey : String) : Except SecretError SecretAcl :=
  match (storage .secrets)[aclKey secretKey]? with
  | some bytes => (fromBytes bytes).mapError .serialization
  -- no record is an empty list, which denies all
  | none => .ok .new

/-- `decryptAtRest` decodes the envelope and opens it under the master key. -/
def fetchSecret (decryptAtRest : Bytes → Except SecretError Bytes) (storage : Disk) (secretKey : String)
    (requesting : SpiffeId) : Except SecretError Bytes := do
  let acl ← loadAcl storage secretKey
  acl.authorize secretKey requesting
  match (storage .secrets)[asBytes ("secret:" ++ secretKey)]? with
  | some envelope => decryptAtRest envelope
  | none => .error (.notFound secretKey)

theorem fetchSecret_congr {secretKey} (acl : (left .secrets)[aclKey secretKey]? = (right .secrets)[aclKey secretKey]?)
    (secret : (left .secrets)[asBytes ("secret:" ++ secretKey)]? = (right .secrets)[asBytes ("secret:" ++ secretKey)]?)
    (decryptAtRest : Bytes → Except SecretError Bytes) (requesting : SpiffeId) :
    fetchSecret decryptAtRest left secretKey requesting = fetchSecret decryptAtRest right secretKey requesting := by
  simp only [fetchSecret,loadAcl,acl,secret]

end

def dekLength : Nat := 32

def masterKeyLength : Nat := 32

def nonceLength : Nat := 12

structure Dek where
  bytes : Bytes
  length_eq : bytes.length = dekLength

structure FileMasterKey where
  rawKey : Bytes
  length_eq : rawKey.length = masterKeyLength

structure Nonce where
  bytes : Bytes
  length_eq : bytes.length = nonceLength

/-- ChaCha20-Poly1305 under a key and a nonce of the right lengths. -/
class Aead where
  encrypt : (key nonce plaintext : Bytes) → Except String Bytes
  decrypt : (key nonce ciphertext : Bytes) → Except String Bytes
  decrypt_encrypt : ∀ key nonce plaintext ciphertext : Bytes, key.length = 32 → nonce.length = 12 →
    encrypt key nonce plaintext = .ok ciphertext → decrypt key nonce ciphertext = .ok plaintext

structure WrappedDek where
  nonce : Bytes
  ciphertext : Bytes
  deriving DecidableEq

structure EnvelopeSecret where
  wrappedDek : WrappedDek
  nonce : Bytes
  ciphertext : Bytes
  deriving DecidableEq

def Dek.ofBytes (bytes : Bytes) : Except SecretError Dek :=
  if length_eq : bytes.length = dekLength then .ok ⟨bytes,length_eq⟩ else .error (.invalidDekLength bytes.length)

@[simp] theorem Dek.ofBytes_bytes (dek : Dek) : Dek.ofBytes dek.bytes = .ok dek := by
  simp [Dek.ofBytes,dek.length_eq]

structure Drawn where
  dek : Dek
  nonce : Nonce
  wrapNonce : Nonce

variable [Aead] {masterKey : FileMasterKey} {drawn : Drawn} {plaintext : Bytes}

def FileMasterKey.wrapDek (masterKey : FileMasterKey) (nonce : Nonce) (dek : Dek) : Except SecretError WrappedDek := do
  let ciphertext ← (Aead.encrypt masterKey.rawKey nonce.bytes dek.bytes).mapError .encryption
  pure ⟨nonce.bytes,ciphertext⟩

def FileMasterKey.unwrapDek (masterKey : FileMasterKey) (wrapped : WrappedDek) : Except SecretError Dek :=
  if wrapped.nonce.length ≠ nonceLength then .error (.invalidNonceLength wrapped.nonce.length) else do
    let plaintext ← (Aead.decrypt masterKey.rawKey wrapped.nonce wrapped.ciphertext).mapError .decryption
    Dek.ofBytes plaintext

def encryptAtRest (masterKey : FileMasterKey) (drawn : Drawn) (plaintext : Bytes) :
    Except SecretError EnvelopeSecret := do
  let ciphertext ← (Aead.encrypt drawn.dek.bytes drawn.nonce.bytes plaintext).mapError .encryption
  let wrappedDek ← masterKey.wrapDek drawn.wrapNonce drawn.dek
  pure ⟨wrappedDek,drawn.nonce.bytes,ciphertext⟩

def decryptAtRest (masterKey : FileMasterKey) (envelope : EnvelopeSecret) : Except SecretError Bytes := do
  let dek ← masterKey.unwrapDek envelope.wrappedDek
  if envelope.nonce.length ≠ nonceLength then .error (.invalidNonceLength envelope.nonce.length)
  else (Aead.decrypt dek.bytes envelope.nonce envelope.ciphertext).mapError .decryption

theorem unwrapDek_wrapDek (ok : masterKey.wrapDek nonce dek = .ok wrapped) :
    masterKey.unwrapDek wrapped = .ok dek := by
  obtain ⟨ciphertext,encrypted,ok⟩ := bind_ok ok
  cases ok
  have decrypted := Aead.decrypt_encrypt _ _ _ _ masterKey.length_eq nonce.length_eq (mapError_ok.mp encrypted)
  simp [FileMasterKey.unwrapDek,nonce.length_eq,decrypted,Except.mapError,Bind.bind,Except.bind]

theorem decryptAtRest_encryptAtRest (ok : encryptAtRest masterKey drawn plaintext = .ok envelope) :
    decryptAtRest masterKey envelope = .ok plaintext := by
  obtain ⟨ciphertext,encrypted,ok⟩ := bind_ok ok
  obtain ⟨wrapped,wrapping,ok⟩ := bind_ok ok
  cases ok
  have decrypted := Aead.decrypt_encrypt _ _ _ _ drawn.dek.length_eq drawn.nonce.length_eq (mapError_ok.mp encrypted)
  simp [decryptAtRest,unwrapDek_wrapDek wrapping,drawn.nonce.length_eq,decrypted,Except.mapError,Bind.bind,Except.bind]

variable [Postcard EnvelopeSecret]

def sealEnvelope (masterKey : FileMasterKey) (drawn : Drawn) (plaintext : Bytes) : Except String Bytes :=
  ((encryptAtRest masterKey drawn plaintext).map toAllocvec).mapError SecretError.display

def openEnvelope (masterKey : FileMasterKey) (bytes : Bytes) : Except SecretError Bytes := do
  let envelope ← (fromBytes (α := EnvelopeSecret) bytes).mapError .serialization
  decryptAtRest masterKey envelope

theorem openEnvelope_sealEnvelope (ok : sealEnvelope masterKey drawn plaintext = .ok bytes) :
    openEnvelope masterKey bytes = .ok plaintext := by
  have encoded := mapError_ok.mp ok
  cases encrypted : encryptAtRest masterKey drawn plaintext with
  | error e =>
    rw [encrypted] at encoded
    cases encoded
  | ok envelope =>
    rw [encrypted] at encoded
    cases encoded
    have decrypted := decryptAtRest_encryptAtRest encrypted
    simp [openEnvelope,decrypted,Except.mapError,Bind.bind,Except.bind]

end FleetosControl
