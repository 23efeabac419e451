import Mathlib.Data.List.Infix
import FleetosControl.Ca.ReferencePlatform

/-! Apple Secure Enclave attestations. The chain is walked by names and signatures, and the device
key is looked for among the bytes of the leaf. -/
namespace FleetosControl
open Wire

/-- What is used of x509-parser and of the digest. -/
class X509 where
  Certificate : Type
  -- what is left after the certificate, and the certificate
  parse : Bytes → Except String (Bytes × Certificate)
  issuer : Certificate → Bytes
  subject : Certificate → Bytes
  subjectPki : Certificate → Bytes
  pkiOffset : Certificate → Nat
  -- it is a slice of the certificate that was parsed
  subjectPki_slice : ∀ data rest cert, parse data = .ok (rest,cert) →
    subjectPki cert <+: (data.take (data.length - rest.length)).drop (pkiOffset cert)
  verifySignature : Certificate → Bytes → Except String Unit
  notBefore : Certificate → Int64
  notAfter : Certificate → Int64
  extensions : Certificate → List (String × Bytes)
  isCa : Certificate → Bool
  sha256 : Bytes → Bytes

structure AppleSeAttestation where
  attestationData : Bytes
  nonce : Bytes
  devicePublicKey : Bytes
  dcosToken : Option Bytes

inductive AppleSeError where
  | nonce (text : String)
  | quoteVerification (text : String)
  -- an index out of range, in `parse_octet_string`
  | panicked

def AppleSeError.display : AppleSeError → String
  | nonce text => "nonce error: " ++ text
  | quoteVerification text => "quote verification failed: " ++ text
  | panicked => "index out of bounds"

def maxChainDepth : Nat := 8

def appleAttestationExtOid : String := "1.2.840.113635.100.8.2"

section
variable [X509]

structure ChainEntry where
  der : Bytes
  cert : X509.Certificate

/-- The loop, with room for so many certificates more. -/
def parseEntries : Nat → Bytes → Except AppleSeError (List ChainEntry)
  | _,[] => .ok []
  | 0,_ => .error (.quoteVerification "attestation chain too long")
  | room + 1,data => do
    let (remaining,cert) ← (X509.parse data).mapError fun e =>
      .quoteVerification ("attestation chain cert parse failed: " ++ e)
    let entries ← parseEntries room remaining
    pure (⟨data.take (data.length - remaining.length),cert⟩ :: entries)

def parseChain (data : Bytes) : Except AppleSeError (List ChainEntry) := do
  let entries ← parseEntries maxChainDepth data
  if entries.isEmpty then .error (.quoteVerification "empty attestation chain") else pure entries

def checkValidityPeriod (cert : X509.Certificate) (now : Int64) : Except AppleSeError Unit :=
  if now < X509.notBefore cert ∨ X509.notAfter cert < now then
    .error (.quoteVerification ("attestation cert outside validity period (now=" ++ toString now ++ ", not_before=" ++
      toString (X509.notBefore cert) ++ ", not_after=" ++ toString (X509.notAfter cert) ++ ")"))
  else .ok ()

/-- Each certificate is checked with a reading of the clock of its own. -/
def verifyChain (rootDer : Bytes) (rootCert : X509.Certificate) (clock : Nat → Int64) :
    List ChainEntry → Except AppleSeError Unit
  | [] => .error .panicked
  | entry :: above => do
    checkValidityPeriod entry.cert (clock above.length)
    if entry.der = rootDer then pure () else
      match above with
      | [] =>
        if X509.issuer entry.cert = X509.subject rootCert then
          (X509.verifySignature entry.cert (X509.subjectPki rootCert)).mapError fun e =>
            .quoteVerification ("chain does not verify against Apple Root CA - G3: " ++ e)
        else .error (.quoteVerification "attestation chain does not terminate at Apple Root CA - G3")
      | issuer :: rest =>
        if X509.issuer entry.cert ≠ X509.subject issuer.cert then
          .error (.quoteVerification "attestation chain issuer/subject mismatch")
        else do
          (X509.verifySignature entry.cert (X509.subjectPki issuer.cert)).mapError fun e =>
            .quoteVerification ("attestation chain signature verification failed: " ++ e)
          verifyChain rootDer rootCert clock (issuer :: rest)

def parseOctetString : Bytes → Except AppleSeError (Option Bytes)
  | [] => .ok none
  | tag :: rest =>
    if tag ≠ 0x04 then .ok none else
      match rest with
      | [] => .error .panicked
      | first :: rest =>
        let octets (length : Nat) (rest : Bytes) := if rest.length < length then none else some (rest.take length)
        if first < 0x80 then .ok (octets first.toNat rest) else
          let n := (first &&& 0x7f).toNat
          if n = 0 ∨ 4 < n ∨ rest.length < n then .ok none
          else .ok (octets ((rest.take n).foldl (fun length byte => length * 256 + byte.toNat) 0) (rest.drop n))

def verifyNonceBinding (leaf : X509.Certificate) (expectedNonce : Bytes) : Except AppleSeError Unit :=
  match (X509.extensions leaf).find? (·.1 = appleAttestationExtOid) with
  | none => .error (.quoteVerification "Apple attestation extension not found in leaf certificate")
  | some extension => do
    match ← parseOctetString extension.2 with
    | none => .error (.quoteVerification "Apple attestation extension is not a valid OCTET STRING")
    | some content =>
      if content = X509.sha256 expectedNonce then pure ()
      else .error (.quoteVerification "Apple attestation nonce binding mismatch")

def verifyAppleSeAttestationWithRoot (attestation : AppleSeAttestation) (expectedNonce rootDer : Bytes)
    (clock : Nat → Int64) : Except AppleSeError Unit :=
  if attestation.nonce ≠ expectedNonce then .error (.nonce "attestation nonce does not match issued nonce")
  else if attestation.attestationData.isEmpty then .error (.quoteVerification "empty attestation data")
  else if attestation.devicePublicKey.isEmpty then .error (.quoteVerification "empty device public key")
  else do
    let (_,rootCert) ← (X509.parse rootDer).mapError fun e => .quoteVerification ("Apple root CA parse failed: " ++ e)
    let entries ← parseChain attestation.attestationData
    verifyChain rootDer rootCert clock entries
    match entries with
    | [] => .error .panicked
    | leaf :: _ =>
      if leaf.der.tails.any attestation.devicePublicKey.isPrefixOf then verifyNonceBinding leaf.cert expectedNonce
      else .error (.quoteVerification "attested device public key not found in leaf certificate")

variable {attestation : AppleSeAttestation} {expectedNonce rootDer : Bytes} {clock : Nat → Int64}

end

class AppleSe extends X509, Postcard AppleSeAttestation where
  bundledAppleSeRoot : Bytes

def verifyAppleSeAttestation [AppleSe] (attestation : AppleSeAttestation) (expectedNonce : Bytes) (clock : Nat → Int64) :
    Except AppleSeError Unit :=
  verifyAppleSeAttestationWithRoot attestation expectedNonce AppleSe.bundledAppleSeRoot clock

section
/-- Certificates of eight bytes: subject, issuer, key, signer, CA flag, and the extension. -/
@[reducible] def plainX509 : X509 where
  Certificate := Bytes
  parse data := if data.length < 8 then .error "incomplete" else .ok (data.drop 8,data.take 8)
  issuer cert := [cert.getD 1 0]
  subject cert := [cert.getD 0 0]
  subjectPki cert := [cert.getD 2 0]
  pkiOffset _ := 2
  subjectPki_slice data rest cert parsed := by
    split at parsed
    case isTrue => cases parsed
    case isFalse long =>
      cases parsed
      have eight : data.length - (data.drop 8).length = 8 := by
        rw [List.length_drop]
        omega
      have third : 2 < (data.take 8).length := by
        rw [List.length_take]
        omega
      rw [eight,List.drop_eq_getElem_cons third,List.getD_eq_getElem?_getD,List.getElem?_eq_getElem third]
      exact List.prefix_append [_] _
  verifySignature cert key := if key = [cert.getD 3 0] then .ok () else .error "signature"
  notBefore _ := 0
  notAfter _ := 1800000000
  extensions cert := [(appleAttestationExtOid,cert.drop 5)]
  isCa cert := cert.getD 4 0 = 1
  sha256 nonce := nonce

attribute [local instance] plainX509

def rootCa : Bytes := [10,10,20,20,1,4,1,0]

end

/-- The definite forms of X.690, 8.1.3: how many bytes they take and the length they give. -/
def definiteLength : Bytes → Option (Nat × Nat)
  | [] => none
  | first :: rest =>
    if first < 0x80 then some (1,first.toNat) else
      let n := first.toNat - 128
      if n = 0 ∨ n = 127 ∨ rest.length < n then none
      else some (n + 1,(rest.take n).foldl (fun length byte => length * 256 + byte.toNat) 0)

def Shortest (size length : Nat) : Prop := ∀ octets other, definiteLength octets = some (other,length) → size ≤ other

structure BeginsOctetString (bytes content : Bytes) (size : Nat) : Prop where
  tag : bytes.head? = some 0x04
  length : definiteLength bytes.tail = some (size,content.length)
  present : content <+: bytes.drop (size + 1)

theorem BeginsOctetString.unique (one : BeginsOctetString bytes content size)
    (two : BeginsOctetString bytes text other) : size = other := by
  have same := one.length.symm.trans two.length
  simp only [Option.some.injEq,Prod.mk.injEq] at same
  exact same.1

theorem takes_iff {n : Nat} {content rest : Bytes} :
    (if rest.length < n then none else some (rest.take n)) = some content ↔ content.length = n ∧ content <+: rest := by
  split
  case isTrue missing =>
    refine ⟨nofun,fun ⟨length,front⟩ => ?_⟩
    have bound := front.length_le
    omega
  case isFalse there =>
    rw [List.prefix_iff_eq_take,Option.some.injEq]
    constructor
    · rintro rfl
      simp [Nat.min_eq_left (not_lt.mp there)]
    · rintro ⟨rfl,whole⟩
      exact whole.symm

theorem announced_toNat {first : UInt8} (long : ¬first < 0x80) : (first &&& 0x7f).toNat = first.toNat - 128 := by
  have bound := UInt8.lt_iff_toNat_lt.not.mp long
  have low : (first &&& 0x7f).toNat = first.toNat % 2 ^ 7 := by
    rw [UInt8.toNat_and,← Nat.and_two_pow_sub_one_eq_mod]
    rfl
  have top := first.toNat_lt
  simp at bound
  omega

theorem read_iff {tail content : Bytes} {size length : Nat} (form : definiteLength tail = some (size,length)) (few : size ≤ 5) :
    content.length = length ∧ content <+: tail.drop size ↔ ∃ size ≤ 5, BeginsOctetString (0x04::tail) content size := by
  constructor
  · rintro ⟨rfl,front⟩
    exact ⟨size,few,rfl,form,front⟩
  · rintro ⟨other,_,begins⟩
    have same := form.symm.trans begins.length
    simp only [Option.some.injEq,Prod.mk.injEq] at same
    obtain ⟨rfl,rfl⟩ := same
    exact ⟨rfl,begins.present⟩

theorem parseOctetString_spec (more : bytes ≠ [0x04]) : ∃ result, parseOctetString bytes = .ok result ∧
    ∀ content, result = some content ↔ ∃ size ≤ 5, BeginsOctetString bytes content size := by
  unfold parseOctetString
  split
  · exact ⟨none,rfl,fun content => ⟨nofun,fun ⟨_,_,begins⟩ => nomatch begins.tag⟩⟩
  case h_2 tag rest =>
    split
    case isTrue other =>
      exact ⟨none,rfl,fun content => ⟨nofun,fun ⟨_,_,begins⟩ => (other (Option.some.inj begins.tag)).elim⟩⟩
    case isFalse octet =>
      obtain rfl := not_not.mp octet
      cases rest with
      | nil => exact (more rfl).elim
      | cons first rest =>
        simp only
        split
        case isTrue small =>
          have form : definiteLength (first::rest) = some (1,first.toNat) := if_pos small
          exact ⟨_,rfl,fun content => takes_iff.trans (read_iff form (by decide))⟩
        case isFalse large =>
          rw [announced_toNat large]
          split
          case isTrue refused =>
            refine ⟨none,rfl,fun content => ⟨nofun,fun ⟨size,few,begins⟩ => ?_⟩⟩
            have length := begins.length
            simp only [List.tail_cons,definiteLength,large,if_false] at length
            split at length
            · cases length
            · simp only [Option.some.injEq,Prod.mk.injEq] at length
              omega
          case isFalse taken =>
            refine ⟨_,rfl,fun content => takes_iff.trans ?_⟩
            rw [← List.drop_succ_cons (a := first)]
            refine read_iff ?_ (by omega)
            simp only [definiteLength,large,if_false]
            exact if_neg (by omega)

/-- The parser agrees with DER on all but these: a lone tag, a length in up to four bytes that is not in its shortest
form, and one in its shortest form that takes more. -/
theorem octet_string_exact_iff (bytes : Bytes) :
    (∃ result, parseOctetString bytes = .ok result ∧ ∀ content, result = some content ↔
      ∃ size, Shortest size content.length ∧ BeginsOctetString bytes content size) ↔
    bytes ≠ [0x04] ∧ ∀ size content, BeginsOctetString bytes content size → (size ≤ 5 ↔ Shortest size content.length) := by
  constructor
  · rintro ⟨result,ok,agrees⟩
    have more : bytes ≠ [0x04] := by
      rintro rfl
      cases ok
    obtain ⟨again,same,reads⟩ := parseOctetString_spec more
    obtain rfl := Except.ok.inj (ok.symm.trans same)
    refine ⟨more,fun size content begins => ?_⟩
    have both := (reads content).symm.trans (agrees content)
    constructor
    · intro few
      obtain ⟨other,shortest,form⟩ := both.mp ⟨size,few,begins⟩
      exact begins.unique form ▸ shortest
    · intro shortest
      obtain ⟨other,few,form⟩ := both.mpr ⟨size,shortest,begins⟩
      exact begins.unique form ▸ few
  · rintro ⟨more,agree⟩
    obtain ⟨result,ok,reads⟩ := parseOctetString_spec more
    refine ⟨result,ok,fun content => (reads content).trans (exists_congr fun size => and_congr_left ?_)⟩
    exact agree size content

/-- A lone tag, and the empty string with its length in two bytes. -/
theorem octet_string_beyond_der : (∃ error, parseOctetString [0x04] = .error error) ∧
    parseOctetString [0x04,0x81,0x00] = .ok (some []) ∧
    ¬∃ size, Shortest size 0 ∧ BeginsOctetString [0x04,0x81,0x00] [] size := by
  refine ⟨⟨_,rfl⟩,rfl,fun ⟨size,shortest,begins⟩ => ?_⟩
  have one := shortest [0x00] 1 rfl
  have two : definiteLength [0x81,0x00] = some (2,0) := by decide
  have same := two.symm.trans begins.length
  simp at same
  omega

end FleetosControl
