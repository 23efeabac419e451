import FleetosControl.Attestation.JoinTokens

/-! `submit_csr`. A caller renews its own identity or that of a workload it hosts, or has a grant left by
an attestation. The version is read and the next one proposed, in any interleaving. -/
namespace FleetosControl
open Wire KeyValue

structure SvidResponse where
  certChainDer : Bytes
  svidVersion : UInt64
  deriving DecidableEq

section
variable [FleetosCore] [Formats] [ProofCore] {storage : Disk} {record : SvidRecord}

def readSvid (storage : Disk) (spiffeId : String) : Except Status (UInt64 × Bytes) :=
  match (storage .svids)[asBytes spiffeId]? with
  | none => .ok (0,[])
  | some bytes =>
    match fromBytes (α := SvidRecord) bytes with
    | .error e => .error ⟨.internal,"failed to parse SVID record: " ++ e⟩
    | .ok record => .ok (record.svidVersion,record.agentX25519Pubkey)

def nextSvid (storage : Disk) (spiffeId : String) (pubkey : Option Bytes) (now : Int64) : Except Status SvidRecord := do
  let (currentVersion,existingPubkey) ← readSvid storage spiffeId
  pure ⟨spiffeId,currentVersion + 1,now,pubkey.getD existingPubkey⟩

structure CaServer where
  storage : Disk
  dataControl : TrustBundle
  svidTtlSecs : UInt64
  now : Int64

variable [SpiffeParts] [Postcard SvidGrantRecord]

namespace CaServer

def authorizeAuthenticated (server : CaServer) (csrSpiffeId : String) (callerId : SpiffeId) (csrOrdinal : Option UInt32) :
    Except Status VerifiedPlacement :=
  if display callerId = csrSpiffeId then .ok ⟨none⟩
  else if FleetosCore.kind callerId = .node then do
    let target ← (parse csrSpiffeId).mapError fun e =>
      ⟨.invalidArgument,"CSR SPIFFE ID is malformed: " ++ e⟩
    (verifyPlacement server.storage callerId target csrOrdinal).mapError fun e =>
      ⟨.permissionDenied,"caller " ++ display callerId ++ " is not authorized to sign " ++ csrSpiffeId ++
        ": " ++ e.display⟩
  else permissionDenied ("caller " ++ display callerId ++ " cannot sign a CSR for " ++ csrSpiffeId)

def lookupGrant (storage : Disk) (csrSpiffeId : String) : Except Status Bytes :=
  match (storage .svidGrants)[asBytes csrSpiffeId]? with
  | some bytes => .ok bytes
  | none => permissionDenied "unauthenticated CSR signing requires a valid attestation grant"

def removeGrant (storage : Disk) (csrSpiffeId : String) : Disk :=
  commit storage [.remove .svidGrants (asBytes csrSpiffeId)]

-- The grant is gone by the time its expiry is looked at.
def checkGrant (now : Int64) (bytes : Bytes) : Except Status Bytes :=
  match fromBytes (α := SvidGrantRecord) bytes with
  | .error e => .error ⟨.internal,"corrupt attestation grant: " ++ e⟩
  | .ok grant => if grant.expiresAt < now then permissionDenied "attestation grant expired" else .ok grant.agentX25519Pubkey

def authorizeViaGrant (server : CaServer) (csrSpiffeId : String) : Disk × Except Status Bytes :=
  match lookupGrant server.storage csrSpiffeId with
  | .error status => (server.storage,.error status)
  | .ok bytes => (removeGrant server.storage csrSpiffeId,checkGrant server.now bytes)

def authorizeIssuance (server : CaServer) (csrSpiffeId : String) (caller : Peer) (csrOrdinal : Option UInt32) :
    Disk × Except Status (Option Bytes) :=
  match caller with
  | some callerId => (server.storage,(server.authorizeAuthenticated csrSpiffeId callerId csrOrdinal).map fun _ => none)
  | none => ((server.authorizeViaGrant csrSpiffeId).1,(server.authorizeViaGrant csrSpiffeId).2.map some)

def requestedId (csrDer : Bytes) : Except Status String :=
  if csrDer.isEmpty then invalidArgument "csr_der cannot be empty"
  else (extractSpiffeIdFromCsr csrDer).mapError fun e => ⟨.invalidArgument,"CSR validation failed: " ++ e⟩

/-- `submit_csr` up to its proposal. -/
def authorizeCsr (server : CaServer) (caller : Peer) (csrDer : Bytes) : Disk × Except Status SvidRecord :=
  match requestedId csrDer with
  | .error status => (server.storage,.error status)
  | .ok spiffeId =>
    match server.authorizeIssuance spiffeId caller (CertificateCore.extractOrdinal csrDer) with
    | (storage,.error status) => (storage,.error status)
    | (storage,.ok grantPubkey) => (storage,nextSvid storage spiffeId grantPubkey server.now)

def signAccepted (server : CaServer) (signedAt : Int64) (csrDer : Bytes) (record : SvidRecord) :
    Except Status SvidResponse := do
  let certDer ← (signCsr signedAt csrDer server.dataControl server.svidTtlSecs).mapError fun e =>
    ⟨.internal,"CSR signing failed: " ++ e⟩
  pure ⟨certDer,record.svidVersion⟩

end CaServer

theorem nextSvid_ok {now : Int64} (ok : nextSvid storage spiffeId pubkey now = .ok record) :
    ∃ current, readSvid storage spiffeId = .ok current ∧
      record.spiffeId = spiffeId ∧ record.svidVersion = current.1 + 1 := by
  obtain ⟨current,read,ok⟩ := bind_ok ok
  cases ok
  exact ⟨current,read,rfl,rfl⟩

theorem authorizeCsr_ok {server : CaServer} (ok : server.authorizeCsr caller csrDer = (storage,.ok record)) :
    ∃ spiffeId grantPubkey,
      extractSpiffeIdFromCsr csrDer = .ok spiffeId ∧
      server.authorizeIssuance spiffeId caller (CertificateCore.extractOrdinal csrDer) = (storage,.ok grantPubkey) ∧
      nextSvid storage spiffeId grantPubkey server.now = .ok record := by
  unfold CaServer.authorizeCsr at ok
  split at ok
  · cases ok
  case h_2 spiffeId requested =>
    have extracted : extractSpiffeIdFromCsr csrDer = .ok spiffeId := by
      unfold CaServer.requestedId at requested
      split at requested
      · cases requested
      · exact mapError_ok.mp requested
    split at ok
    · cases ok
    case h_2 consumed grantPubkey authorized =>
      obtain ⟨rfl,next⟩ := Prod.mk.inj ok
      exact ⟨spiffeId,grantPubkey,extracted,authorized,next⟩

/-- Without a connection and without a grant, nobody gets a certificate for an identity that no node hosts. -/
theorem authorizeCsr_other {server : CaServer} {id : SpiffeId} (ok : server.authorizeCsr caller csrDer = (storage,.ok record))
    (notWorkload : FleetosCore.kind id ≠ .sa) (away : ∀ peer, caller = some peer → peer ≠ id)
    (ungranted : (server.storage .svidGrants)[asBytes (display id)]? = none) :
    record.spiffeId ≠ display id ∧ (storage .svidGrants)[asBytes (display id)]? = none := by
  obtain ⟨spiffeId,grantPubkey,_,authorized,next⟩ := authorizeCsr_ok ok
  obtain ⟨_,_,named,_⟩ := nextSvid_ok next
  rw [named]
  cases caller with
  | some peer =>
    obtain ⟨rfl,outcome⟩ := Prod.mk.inj authorized
    refine ⟨?_,ungranted⟩
    intro same
    subst same
    unfold CaServer.authorizeAuthenticated at outcome
    split at outcome
    case isTrue own =>
      have parsed := parse_display peer
      rw [own,parse_display,Except.ok.injEq] at parsed
      exact away peer rfl parsed.symm
    case isFalse =>
      split at outcome
      case isFalse => cases outcome
      case isTrue =>
        rw [parse_display] at outcome
        cases verified : verifyPlacement server.storage peer id (CertificateCore.extractOrdinal csrDer) with
        | error e =>
          simp only [verified,Except.mapError,bind,Except.bind] at outcome
          cases outcome
        | ok placement =>
          obtain ⟨found,_,hosted⟩ := verifyPlacement_ok verified
          simp only [hosts,Bool.and_eq_true,decide_eq_true_eq] at hosted
          rw [← hosted.2,SpiffeParts.kind_new] at notWorkload
          exact notWorkload rfl
  | none =>
    obtain ⟨rfl,outcome⟩ := Prod.mk.inj authorized
    unfold CaServer.authorizeViaGrant CaServer.lookupGrant at outcome ⊢
    by_cases same : spiffeId = display id
    · subst same
      rw [ungranted] at outcome
      cases outcome
    · refine ⟨same,?_⟩
      split
      · exact ungranted
      · simp [CaServer.removeGrant,perform,Write.on,Std.ExtTreeMap.getElem?_erase,ungranted]

section
variable [ActivationFormats]

/-- A CSR that one of the two handlers accepted, the identity it was accepted for, and the certificate. -/
inductive Certified : Bytes → String → Bytes → Prop where
  | csr {server : CaServer} {caller csrDer storage record} {signedAt : Int64} {response} :
      server.authorizeCsr caller csrDer = (storage,.ok record) →
      server.signAccepted signedAt csrDer record = .ok response → Certified csrDer record.spiffeId response.certChainDer
  | proof {server : AttestationServer} {req storage activation} :
      server.checkProof req = (storage,.ok activation) → Certified req.csrDer activation.spiffeId activation.certDer

theorem certified_names_iff {csrDer : Bytes} {authorized : String} {certDer : Bytes}
    (certified : Certified csrDer authorized certDer) :
    uriNames (subjectAltNames certDer) = [authorized] ↔ ∃ uri, csrUris csrDer = .ok [uri] := by
  cases certified with
  | csr accepted answered =>
    obtain ⟨spiffeId,_,extracted,_,next⟩ := authorizeCsr_ok accepted
    obtain ⟨_,_,named,_⟩ := nextSvid_ok next
    obtain ⟨certificate,signed,answered⟩ := bind_ok answered
    cases answered
    rw [named]
    exact certificate_names_iff extracted (mapError_ok.mp signed)
  | proof accepted =>
    obtain ⟨bundle,_,_,extracted,signed⟩ := checkProof_ok accepted
    exact certificate_names_iff extracted signed

end

end

section
open Reference

def csrNaming (uris : List String) : Bytes := (Codec.list Codec.string).encode uris

def agent : SpiffeId := ⟨agentId,by decide +kernel⟩

def caServer (storage : Disk) : CaServer := ⟨storage,dataControl,86400,1700000060⟩

def firstSvid : SvidRecord := ⟨agentId,1,1700000060,[]⟩

theorem renewal_named : Certified (csrNaming [agentId]) agentId (csrNaming [agentId]) ∧
    uriNames (subjectAltNames (csrNaming [agentId])) = [agentId] := by
  have accepted : (caServer Disk.empty).authorizeCsr (some agent) (csrNaming [agentId]) = (Disk.empty,.ok firstSvid) :=
    Prod.ext rfl (by decide +kernel)
  have answered : (caServer Disk.empty).signAccepted 1700000061 (csrNaming [agentId]) firstSvid =
      .ok ⟨csrNaming [agentId],1⟩ := by decide +kernel
  have certified : Certified _ agentId _ := .csr accepted answered
  exact ⟨certified,(certified_names_iff certified).mpr ⟨agentId,by decide +kernel⟩⟩

def controlId : String := "spiffe://data.example.internal/ns/system/control/control-0"

-- The agent renews its own identity and slips the name of a control node into the same CSR.
theorem second_name_certified : Certified (csrNaming [agentId,controlId]) agentId (csrNaming [agentId,controlId]) ∧
    uriNames (subjectAltNames (csrNaming [agentId,controlId])) = [agentId,controlId] := by
  have accepted : (caServer Disk.empty).authorizeCsr (some agent) (csrNaming [agentId,controlId]) =
      (Disk.empty,.ok firstSvid) := Prod.ext rfl (by decide +kernel)
  have answered : (caServer Disk.empty).signAccepted 1700000061 (csrNaming [agentId,controlId]) firstSvid =
      .ok ⟨csrNaming [agentId,controlId],1⟩ := by decide +kernel
  have certified : Certified _ agentId _ := .csr accepted answered
  exact ⟨certified,by decide +kernel⟩

end

open Trace Views

theorem lt_next_iff {read stored : UInt64} (below : read ≤ stored) :
    stored < read + 1 ↔ read = stored ∧ stored.toNat + 1 < 2^64 := by
  have bound := stored.toNat_lt
  rw [UInt64.le_iff_toNat_le] at below
  rw [UInt64.lt_iff_toNat_lt,UInt64.toNat_add,← UInt64.toNat_inj]
  have one : (1 : UInt64).toNat = 1 := rfl
  omega

section
variable [FleetosCore]

def Entry.svidRecord (entry : Entry) : Option SvidRecord :=
  match entry.payload with
  | .normal ⟨.upsertSvidVersion record,_⟩ => some record
  | _ => none

def Entry.svidFor (spiffeId : String) (entry : Entry) : Option SvidRecord :=
  entry.svidRecord.filter fun record => record.spiffeId = spiffeId

abbrev SvidTrace := List (Committed Node Entry)

def recordedVersions (spiffeId : String) (trace : SvidTrace) : List UInt64 :=
  trace.filterMap fun transition => (transition.label.command.svidFor spiffeId).map (·.svidVersion)

variable [Formats]

-- What does not decode is never issued from, so its version does not matter.
def svidVersion (spiffeId : String) (node : Node) : UInt64 :=
  match readSvid node.disk spiffeId with
  | .ok (version,_) => version
  | .error _ => 0

theorem advances_svid (advances : Advances before entry after) (spiffeId : String) :
    svidVersion spiffeId after = ((entry.svidFor spiffeId).map (·.svidVersion)).getD (svidVersion spiffeId before) := by
  rcases advances.cases with ⟨⟨cmd,audit⟩,writes,kind,normal,ok,contents⟩ | ⟨other,same⟩
  · have unwritten : Keyspace.svids ∉ cmd.touches → entry.svidRecord = none →
        svidVersion spiffeId after = ((entry.svidFor spiffeId).map (·.svidVersion)).getD (svidVersion spiffeId before) := by
      intro untouched apart
      have frame := applyCommand_frame ok .svids untouched
      simp [Entry.svidFor,apart,svidVersion,readSvid,contents .svids rfl,frame]
    cases cmd
    case upsertSvidVersion record =>
      cases ok
      have stored : after.disk .svids = (before.disk .svids).insert (asBytes record.spiffeId) (toAllocvec record) := by
        rw [contents .svids rfl]
        simp [put,perform,Write.on]
      have written : entry.svidRecord = some record := by simp [Entry.svidRecord,normal]
      by_cases own : record.spiffeId = spiffeId
      · subst own
        simp [Entry.svidFor,written,svidVersion,readSvid,stored,Option.filter]
      · simp [Entry.svidFor,written,svidVersion,readSvid,stored,Option.filter,own,Std.ExtTreeMap.getElem?_insert]
    all_goals exact unwritten (by simp [touches]) (by simp [Entry.svidRecord,normal])
  · have apart : entry.svidRecord = none := by
      unfold Entry.svidRecord
      split
      case h_1 normal => exact (other _ normal).elim
      case h_2 => rfl
    simp [Entry.svidFor,apart,svidVersion,readSvid,same .svids rfl]

def Behind (spiffeId : String) (history : History Node) : Prop :=
  ∀ view, history.Seen view → svidVersion spiffeId view ≤ svidVersion spiffeId history.current

theorem behind_step (behind : Behind spiffeId history)
    (grows : svidVersion spiffeId history.current ≤ svidVersion spiffeId next) :
    Behind spiffeId (history.extend next) := by
  intro view seen
  rcases (History.seen_extend history next view).mp seen with rfl | earlier
  · exact UInt64.le_refl _
  · exact UInt64.le_trans (behind view earlier) grows

section
variable [ProofCore] [SpiffeParts] [Postcard SvidGrantRecord] [ActivationFormats] {record : SvidRecord} {spiffeId : String}

/-- A version is proposed from the versions its control node held. The rest of the log is arbitrary. -/
inductive IssuesFrom (view : Disk) : AuditedCommand → Prop where
  | csr {server : CaServer} {caller csrDer storage record} :
      server.storage .svids = view .svids → server.authorizeCsr caller csrDer = (storage,.ok record) →
      IssuesFrom view (.system (.upsertSvidVersion record))
  -- read once the key has been activated
  | activation {server : AttestationServer} {req storage activation} {now : Int64} {record} : server.checkProof req =
      (storage,.ok activation) →
      nextSvid view activation.spiffeId (some activation.agentX25519Pubkey) now = .ok record →
      IssuesFrom view (.system (.upsertSvidVersion record))
  | other {audited : AuditedCommand} : (∀ record, audited.cmd ≠ .upsertSvidVersion record) → IssuesFrom view audited

def Entry.IssuesFrom (view : Node) (entry : Entry) : Prop :=
  ∀ audited, entry.payload = .normal audited → FleetosControl.IssuesFrom view.disk audited

abbrev SvidStep := CommitStep Entry.IssuesFrom Advances

theorem authorizeCsr_svids {server : CaServer} (ok : server.authorizeCsr caller csrDer = (storage,.ok record)) :
    storage .svids = server.storage .svids := by
  obtain ⟨spiffeId,grantPubkey,_,authorized,_⟩ := authorizeCsr_ok ok
  unfold CaServer.authorizeIssuance at authorized
  split at authorized
  · rw [(Prod.mk.inj authorized).1]
  · rw [← (Prod.mk.inj authorized).1]
    unfold CaServer.authorizeViaGrant
    split
    · rfl
    · exact commit_frame _ _ _ (by simp)

theorem issued_version {entry : Entry} (issues : entry.IssuesFrom view)
    (upserts : entry.svidFor spiffeId = some record) : record.svidVersion = svidVersion spiffeId view + 1 := by
  obtain ⟨written,own⟩ := Option.filter_eq_some_iff.mp upserts
  have named : record.spiffeId = spiffeId := by simpa using own
  unfold Entry.svidRecord at written
  split at written
  case h_2 => cases written
  case h_1 found audit normal =>
    cases written
    cases issues _ normal with
    | csr same accepted =>
      obtain ⟨asked,_,_,_,next⟩ := authorizeCsr_ok accepted
      obtain ⟨current,read,identity,version⟩ := nextSvid_ok next
      have kept := (authorizeCsr_svids accepted).trans same
      rw [version,svidVersion,← named,identity]
      simp only [readSvid,← kept] at read ⊢
      rw [read]
    | activation _ next =>
      obtain ⟨current,read,identity,version⟩ := nextSvid_ok next
      rw [version,svidVersion,← named,identity,read]
    | other apart => exact (apart _ rfl).elim

/-- The version read is still the one stored, and there is a next one. -/
def ReadsCurrentVersion (spiffeId : String) (transition : Committed Node Entry) : Prop :=
  transition.label.command.svidFor spiffeId ≠ none →
    svidVersion spiffeId transition.label.view = svidVersion spiffeId transition.before.current ∧
      (svidVersion spiffeId transition.before.current).toNat + 1 < 2^64

theorem versions_chain_iff (run : Run SvidStep first trace last) (behind : Behind spiffeId first) :
    (svidVersion spiffeId first.current :: recordedVersions spiffeId trace).IsChain (· < ·) ↔
      ∀ transition ∈ trace, ReadsCurrentVersion spiffeId transition := by
  induction run with
  | nil => simp [recordedVersions]
  | @cons state next last label rest taken run ih =>
    obtain ⟨seen,issues,advances,extended⟩ := taken.cases
    have version := advances_svid advances spiffeId
    rw [forall_mem_cons]
    cases upserts : label.command.svidFor spiffeId with
    | none =>
      rw [upserts] at version
      have kept : Behind spiffeId next := by
        rw [extended]
        refine behind_step behind ?_
        rw [version]
        exact UInt64.le_refl _
      have quiet : ReadsCurrentVersion spiffeId ⟨state,label,next⟩ := fun some => (some upserts).elim
      have same : recordedVersions spiffeId (⟨state,label,next⟩::rest) = recordedVersions spiffeId rest := by
        simp [recordedVersions,upserts]
      have later := ih kept
      rw [version] at later
      simp only [same,quiet,true_and]
      exact later
    | some record =>
      rw [upserts] at version
      have made := issued_version issues upserts
      have head := lt_next_iff (behind label.view seen)
      have listed : recordedVersions spiffeId (⟨state,label,next⟩::rest) =
          svidVersion spiffeId next.current :: recordedVersions spiffeId rest := by
        simp [recordedVersions,upserts,version]
      have reads : ReadsCurrentVersion spiffeId ⟨state,label,next⟩ ↔
          svidVersion spiffeId state.current < svidVersion spiffeId next.current := by
        simp only [ReadsCurrentVersion,upserts,ne_eq,reduceCtorEq,not_false_eq_true,true_implies]
        rw [← head,version,← made]
        rfl
      rw [listed,List.isChain_cons_cons,reads]
      refine and_congr_right fun grows => ih ?_
      rw [extended]
      exact behind_step behind (UInt64.le_of_lt grows)

theorem versions_increase_iff {start : Node} {last : History Node} {trace : SvidTrace}
    (run : Run SvidStep (.fresh start) trace last) (spiffeId : String) :
    (svidVersion spiffeId start :: recordedVersions spiffeId trace).Pairwise (· < ·) ↔
      ∀ transition ∈ trace, ReadsCurrentVersion spiffeId transition := by
  have behind : Behind spiffeId (.fresh start) := by
    intro view seen
    rw [(History.seen_fresh start view).mp seen]
    exact UInt64.le_refl _
  rw [← List.isChain_iff_pairwise]
  exact versions_chain_iff run behind

end

end

section
open Reference

def renewAgent (index version : UInt64) : Entry := commandAt index (.upsertSvidVersion ⟨agentId,version,1700000060,[]⟩)

def renewed : Node := (apply (boot Disk.empty) [renewAgent 1 1]).1

theorem renewAgent_issues {view : Node} (index : UInt64) {version : UInt64}
    (accepted : ((caServer view.disk).authorizeCsr (some agent) (csrNaming [agentId])).2 =
      .ok ⟨agentId,version,1700000060,[]⟩) : (renewAgent index version).IssuesFrom view := by
  intro audited normal
  cases normal
  exact .csr rfl (Prod.ext rfl accepted)

theorem renews : Advances (boot Disk.empty) (renewAgent 1 1) renewed := advances_apply (by decide +kernel)

def renewedInTurn : Node := (apply renewed [renewAgent 2 2]).1

def renewals : SvidTrace :=
  [⟨⟨boot Disk.empty,[]⟩,⟨boot Disk.empty,renewAgent 1 1⟩,⟨renewed,[boot Disk.empty]⟩⟩,
    ⟨⟨renewed,[boot Disk.empty]⟩,⟨renewed,renewAgent 2 2⟩,⟨renewedInTurn,[renewed,boot Disk.empty]⟩⟩]

theorem agent_renewed_in_turn :
    Run SvidStep (.fresh (boot Disk.empty)) renewals ⟨renewedInTurn,[renewed,boot Disk.empty]⟩ ∧
      (svidVersion agentId (boot Disk.empty) :: recordedVersions agentId renewals).Pairwise (· < ·) := by
  have run : Run SvidStep (.fresh (boot Disk.empty)) renewals ⟨renewedInTurn,[renewed,boot Disk.empty]⟩ := by
    apply Run.cons (commitStep (.inl rfl) (renewAgent_issues 1 (by decide +kernel)) renews)
    apply Run.cons (commitStep (.inl rfl) (renewAgent_issues 2 (by decide +kernel)) (advances_apply (by decide +kernel)))
    exact .nil _
  refine ⟨run,(versions_increase_iff run agentId).mpr ?_⟩
  simp only [renewals,mem_cons,not_mem_nil,or_false,forall_eq_or_imp,forall_eq]
  exact ⟨fun _ => ⟨rfl,by decide +kernel⟩,fun _ => ⟨rfl,by decide +kernel⟩⟩

def renewedAtOnce : Node := (apply renewed [renewAgent 2 1]).1

def racingRenewals : SvidTrace :=
  [⟨⟨boot Disk.empty,[]⟩,⟨boot Disk.empty,renewAgent 1 1⟩,⟨renewed,[boot Disk.empty]⟩⟩,
    ⟨⟨renewed,[boot Disk.empty]⟩,⟨boot Disk.empty,renewAgent 2 1⟩,⟨renewedAtOnce,[renewed,boot Disk.empty]⟩⟩]

/-- Two calls read the version before either has recorded the next one. -/
theorem agent_renewed_at_once :
    Run SvidStep (.fresh (boot Disk.empty)) racingRenewals ⟨renewedAtOnce,[renewed,boot Disk.empty]⟩ ∧
      recordedVersions agentId racingRenewals = [1,1] := by
  refine ⟨?_,by decide +kernel⟩
  apply Run.cons (commitStep (.inl rfl) (renewAgent_issues 1 (by decide +kernel)) renews)
  apply Run.cons (commitStep (.inr mem_cons_self) (renewAgent_issues 2 (by decide +kernel))
    (advances_apply (by decide +kernel)))
  exact .nil _

end

inductive GrantPhase where
  | looked (grantBytes : Bytes)
  | admitted (pubkey : Bytes)
  | proposed (record : SvidRecord)
  | recorded (record : SvidRecord)
  deriving DecidableEq

structure GrantId where
  spiffeId : String
  number : Nat
  deriving DecidableEq

structure GrantCall where
  csrDer : Bytes
  grant : GrantId
  phase : GrantPhase
  deriving DecidableEq

def GrantCall.pastRemoval (call : GrantCall) : Bool :=
  match call.phase with
  | .looked _ => false
  | _ => true

structure GrantedSvid where
  grant : GrantId
  response : SvidResponse

structure CaNode where
  node : Node
  written : String → Nat
  calls : List GrantCall
  issued : List GrantedSvid

inductive GrantEvent [FleetosCore] where
  | granted (attested : Attested)
  | looked (call : GrantCall)
  | removed (call : GrantCall)
  | proposed (call : GrantCall)
  | recorded (call : GrantCall)
  | issued (call : GrantCall)
  | ended (call : GrantCall)
  | applied (entry : Entry)
  | elsewhere

namespace CaNode

def Stored (state : CaNode) (spiffeId : String) : Prop := asBytes spiffeId ∈ state.node.disk .svidGrants

instance (state : CaNode) (spiffeId : String) : Decidable (state.Stored spiffeId) :=
  inferInstanceAs (Decidable (asBytes spiffeId ∈ state.node.disk .svidGrants))

def certificates (state : CaNode) (grant : GrantId) : Nat := state.issued.countP fun svid => svid.grant = grant

def spends (grant : GrantId) (call : GrantCall) : Bool := call.pastRemoval && call.grant = grant

def spent (state : CaNode) (grant : GrantId) : Nat := state.calls.countP (spends grant) + state.certificates grant

def advance (state : CaNode) (call : GrantCall) (phase : GrantPhase) : List GrantCall :=
  { call with phase := phase } :: state.calls.erase call

end CaNode

section
variable [FleetosCore] [Formats] [ProofCore] [Postcard SvidGrantRecord] {before after : CaNode}
  {event : GrantEvent}

-- The caller learns that its grant was corrupt or had expired, and the call is over.
def GrantCall.checked (call : GrantCall) (now : Int64) (grantBytes : Bytes) : List GrantCall :=
  match CaServer.checkGrant now grantBytes with
  | .ok pubkey => [{ call with phase := .admitted pubkey }]
  | .error _ => []

inductive GrantStep : CaNode → GrantEvent → CaNode → Prop where
  | granted {state} (attested : Attested) (now : Int64) : GrantStep state (.granted attested)
      { state with
        node := { state.node with disk := (attested.finish state.node.disk now).1 }
        written := Function.update state.written attested.spiffeId (state.written attested.spiffeId + 1) }
  | looked {state : CaNode} {csrDer grantBytes spiffeId} :
      CaServer.requestedId csrDer = .ok spiffeId → CaServer.lookupGrant state.node.disk spiffeId = .ok grantBytes →
      GrantStep state (.looked ⟨csrDer,⟨spiffeId,state.written spiffeId⟩,.looked grantBytes⟩)
        { state with calls := ⟨csrDer,⟨spiffeId,state.written spiffeId⟩,.looked grantBytes⟩ :: state.calls }
  | removed {state : CaNode} {call grantBytes} (now : Int64) :
      call ∈ state.calls → call.phase = .looked grantBytes → GrantStep state (.removed call)
        { state with
          node := { state.node with disk := CaServer.removeGrant state.node.disk call.grant.spiffeId }
          calls := call.checked now grantBytes ++ state.calls.erase call }
  | proposed {state : CaNode} {call pubkey record} {now : Int64} :
      call ∈ state.calls → call.phase = .admitted pubkey →
      nextSvid state.node.disk call.grant.spiffeId (some pubkey) now = .ok record →
      GrantStep state (.proposed call) { state with calls := state.advance call (.proposed record) }
  | recorded {state : CaNode} {call record logId next} : call ∈ state.calls → call.phase = .proposed record →
      Advances state.node ⟨logId,.normal (.system (.upsertSvidVersion record))⟩ next →
      GrantStep state (.recorded call) { state with node := next, calls := state.advance call (.recorded record) }
  | issued {state : CaNode} {call record} {server : CaServer} {signedAt : Int64} {response} :
      call ∈ state.calls → call.phase = .recorded record →
      server.signAccepted signedAt call.csrDer record = .ok response →
      GrantStep state (.issued call)
        { state with calls := state.calls.erase call, issued := ⟨call.grant,response⟩ :: state.issued }
  | ended {state : CaNode} {call} : call ∈ state.calls →
      GrantStep state (.ended call) { state with calls := state.calls.erase call }
  | applied {state : CaNode} {entry next} : Advances state.node entry next →
      GrantStep state (.applied entry) { state with node := next }
  -- the handlers of other requests leave the grants alone
  | elsewhere {state : CaNode} {next : Node} : next.disk .svidGrants = state.node.disk .svidGrants →
      GrantStep state .elsewhere { state with node := next }

theorem countP_erase {calls : List GrantCall} {call : GrantCall} (member : call ∈ calls) (grant : GrantId) :
    calls.countP (CaNode.spends grant) = (calls.erase call).countP (CaNode.spends grant) +
      if CaNode.spends grant call then 1 else 0 := by
  rw [(List.perm_cons_erase member).countP_eq,List.countP_cons]

theorem spent_step (step : GrantStep before event after) (grant : GrantId) : after.spent grant ≤ before.spent grant +
      match event with
      | .removed call => if call.grant = grant then 1 else 0
      | _ => 0 := by
  cases step with
  | granted | applied | elsewhere => simp [CaNode.spent,CaNode.certificates]
  | looked => simp [CaNode.spent,CaNode.certificates,CaNode.spends,GrantCall.pastRemoval]
  | @removed call grantBytes now member phase =>
    have before := countP_erase member grant
    have admitted : (call.checked now grantBytes).countP (CaNode.spends grant) ≤ if call.grant = grant then 1 else 0 := by
      unfold GrantCall.checked
      split <;> simp [CaNode.spends,GrantCall.pastRemoval]
    simp only [CaNode.spent,CaNode.certificates,List.countP_append]
    omega
  | @proposed call _ _ _ member phase | @recorded call _ _ _ member phase =>
    have before := countP_erase member grant
    simp only [CaNode.spent,CaNode.certificates,CaNode.advance,List.countP_cons]
    simp only [CaNode.spends,GrantCall.pastRemoval,phase,Bool.true_and] at before ⊢
    omega
  | @issued call _ _ _ _ member phase =>
    have before := countP_erase member grant
    simp only [CaNode.spent,CaNode.certificates,List.countP_cons]
    simp only [CaNode.spends,GrantCall.pastRemoval,phase,Bool.true_and] at before ⊢
    omega
  | @ended call member =>
    have before := countP_erase member grant
    simp only [CaNode.spent,CaNode.certificates]
    omega

theorem written_step (step : GrantStep before event after) (spiffeId : String) :
    after.written spiffeId = before.written spiffeId +
      match event with
      | .granted attested => if attested.spiffeId = spiffeId then 1 else 0
      | _ => 0 := by
  cases step with
  | granted attested =>
    by_cases same : attested.spiffeId = spiffeId
    · subst same
      simp
    · simp [same,Function.update_of_ne (Ne.symm same)]
  | _ => rfl

theorem stored_step (step : GrantStep before event after) (spiffeId : String) : after.Stored spiffeId ↔
      match event with
      | .granted attested => attested.spiffeId = spiffeId ∨ before.Stored spiffeId
      | .removed call => call.grant.spiffeId ≠ spiffeId ∧ before.Stored spiffeId
      | _ => before.Stored spiffeId := by
  cases step with
  | granted attested => simp [CaNode.Stored,Attested.finish,put,perform,Write.on]
  | removed => simp [CaNode.Stored,CaServer.removeGrant,perform,Write.on]
  | @recorded _ _ _ next _ _ advances | @applied _ next advances =>
    have same : next.disk .svidGrants = before.node.disk .svidGrants := advances.outside (by simp)
    simp only [CaNode.Stored,same]
  | elsewhere same => simp only [CaNode.Stored,same]
  | _ => rfl

def RemovesItsGrant (transition : Transition CaNode GrantEvent) : Prop :=
  ∀ call, transition.label = .removed call → transition.before.Stored call.grant.spiffeId ∧
      transition.before.written call.grant.spiffeId = call.grant.number

/-- A grant that is spent is not the one stored, now or later. -/
structure SingleUse (state : CaNode) : Prop where
  once : ∀ grant, state.spent grant ≤ 1
  gone : ∀ grant, 0 < state.spent grant → grant.number ≤ state.written grant.spiffeId ∧
    (state.Stored grant.spiffeId → grant.number < state.written grant.spiffeId)

theorem singleUse_step (step : GrantStep before event after) (removes : RemovesItsGrant ⟨before,event,after⟩)
    (kept : SingleUse before) : SingleUse after := by
  have spent := spent_step step
  have written := written_step step
  have stored := stored_step step
  cases event with
  | granted attested =>
    refine ⟨fun grant => (spent grant).trans (kept.once grant),?_⟩
    intro grant used
    obtain ⟨below,beyond⟩ := kept.gone grant (lt_of_lt_of_le used (spent grant))
    rw [written,stored]
    by_cases same : attested.spiffeId = grant.spiffeId
    · simp only [same,if_true]
      omega
    · simp only [same,if_false,false_or]
      exact ⟨below,beyond⟩
  | removed call =>
    obtain ⟨there,number⟩ : before.Stored call.grant.spiffeId ∧
        before.written call.grant.spiffeId = call.grant.number := removes call rfl
    -- while its grant is stored, nobody has spent it
    have unspent : before.spent call.grant = 0 := by
      by_contra used
      have later := (kept.gone call.grant (Nat.pos_of_ne_zero used)).2 there
      omega
    refine ⟨?_,?_⟩
    · intro grant
      have now := spent grant
      by_cases same : call.grant = grant
      · subst same
        simp only [if_true] at now
        omega
      · simp only [same,if_false] at now
        exact now.trans (kept.once grant)
    · intro grant used
      have now := spent grant
      rw [written,stored]
      by_cases same : call.grant = grant
      · subst same
        exact ⟨number.ge,fun again => (again.1 rfl).elim⟩
      · simp only [same,if_false] at now
        obtain ⟨below,beyond⟩ := kept.gone grant (lt_of_lt_of_le used now)
        exact ⟨below,fun still => beyond still.2⟩
  | _ =>
    refine ⟨fun grant => (spent grant).trans (kept.once grant),?_⟩
    intro grant used
    rw [written,stored]
    exact kept.gone grant (lt_of_lt_of_le used (spent grant))

theorem grant_used_once {first last : CaNode} {trace : List (Transition CaNode GrantEvent)}
    (idle : first.calls = [] ∧ first.issued = []) (run : Run GrantStep first trace last)
    (removes : ∀ transition ∈ trace, RemovesItsGrant transition) (grant : GrantId) : last.certificates grant ≤ 1 := by
  have start : SingleUse first := by
    have unspent : ∀ grant, first.spent grant = 0 := by
      intro grant
      simp [CaNode.spent,CaNode.certificates,idle.1,idle.2]
    refine ⟨fun grant => by simp [unspent],fun grant used => ?_⟩
    rw [unspent] at used
    cases used
  have kept := run.invariant SingleUse RemovesItsGrant (fun before label after => singleUse_step) start removes
  have once := kept.2.once grant
  unfold CaNode.spent at once
  omega

end

open Reference

def agentAttested : Attested := ⟨letters.1,.agent,[7],agentId,0,[9]⟩

def agentGrant : Bytes := toAllocvec (agentAttested.grant 1700000060)

def idle : CaNode := ⟨boot Disk.empty,fun _ => 0,[],[]⟩

def granted : CaNode := { idle with
  node := { idle.node with disk := (agentAttested.finish idle.node.disk 1700000060).1 }
  written := Function.update idle.written agentId (idle.written agentId + 1) }

def agentCall (phase : GrantPhase) : GrantCall := ⟨csrNaming [agentId],⟨agentId,granted.written agentId⟩,phase⟩

def agentSvid (version : UInt64) : SvidRecord := ⟨agentId,version,1700000060,[9]⟩

def upsertAgent (version : UInt64) : Entry := commandAt version (.upsertSvidVersion (agentSvid version))

namespace CaNode

def afterLook (state : CaNode) : CaNode := { state with calls := agentCall (.looked agentGrant) :: state.calls }

def afterRemoval (state : CaNode) : CaNode := { state with
  node := { state.node with disk := CaServer.removeGrant state.node.disk agentId }
  calls := (agentCall (.looked agentGrant)).checked 1700000060 agentGrant ++
    state.calls.erase (agentCall (.looked agentGrant)) }

def afterProposal (state : CaNode) (version : UInt64) : CaNode :=
  { state with calls := state.advance (agentCall (.admitted [9])) (.proposed (agentSvid version)) }

def afterCommit (state : CaNode) (version : UInt64) : CaNode := { state with
  node := (apply state.node [upsertAgent version]).1
  calls := state.advance (agentCall (.proposed (agentSvid version))) (.recorded (agentSvid version)) }

def afterIssue (state : CaNode) (version : UInt64) : CaNode := { state with
  calls := state.calls.erase (agentCall (.recorded (agentSvid version)))
  issued := ⟨⟨agentId,granted.written agentId⟩,⟨csrNaming [agentId],version⟩⟩ :: state.issued }

end CaNode

theorem look_step (state : CaNode) (written : state.written agentId = granted.written agentId)
    (found : CaServer.lookupGrant state.node.disk agentId = .ok agentGrant) :
    GrantStep state (.looked (agentCall (.looked agentGrant))) state.afterLook := by
  have requested : CaServer.requestedId (csrNaming [agentId]) = .ok agentId := by decide +kernel
  have step := GrantStep.looked requested found
  rwa [written] at step

variable {state : CaNode}

theorem removal_step (calling : agentCall (.looked agentGrant) ∈ state.calls) :
    GrantStep state (.removed (agentCall (.looked agentGrant))) state.afterRemoval := .removed 1700000060 calling rfl

def issuance (state : CaNode) (version : UInt64) : List (Transition CaNode GrantEvent) :=
  [⟨state,.proposed (agentCall (.admitted [9])),state.afterProposal version⟩,
    ⟨state.afterProposal version,.recorded (agentCall (.proposed (agentSvid version))),
      (state.afterProposal version).afterCommit version⟩,
    ⟨(state.afterProposal version).afterCommit version,.issued (agentCall (.recorded (agentSvid version))),
      ((state.afterProposal version).afterCommit version).afterIssue version⟩]

theorem issuance_run {version : UInt64} (calling : agentCall (.admitted [9]) ∈ state.calls)
    (next : nextSvid state.node.disk agentId (some [9]) 1700000060 = .ok (agentSvid version))
    (applies : (applyEntry state.node (upsertAgent version)).isOk = true)
    (signed : (caServer Disk.empty).signAccepted 1700000061 (csrNaming [agentId]) (agentSvid version) =
      .ok ⟨csrNaming [agentId],version⟩)
    (after : Run GrantStep (((state.afterProposal version).afterCommit version).afterIssue version) rest last) :
    Run GrantStep state (issuance state version ++ rest) last := by
  have proposed : agentCall (.proposed (agentSvid version)) ∈ (state.afterProposal version).calls := mem_cons_self
  have recorded : agentCall (.recorded (agentSvid version)) ∈ ((state.afterProposal version).afterCommit version).calls :=
    mem_cons_self
  apply Run.cons (.proposed calling rfl next)
  apply Run.cons (.recorded proposed rfl (advances_apply applies))
  apply Run.cons (.issued recorded rfl signed)
  exact after

def single : List (Transition CaNode GrantEvent) :=
  [⟨idle,.granted agentAttested,granted⟩,⟨granted,.looked (agentCall (.looked agentGrant)),granted.afterLook⟩,
    ⟨granted.afterLook,.removed (agentCall (.looked agentGrant)),granted.afterLook.afterRemoval⟩] ++
    (issuance granted.afterLook.afterRemoval 1 ++ [])

def served : CaNode := ((granted.afterLook.afterRemoval.afterProposal 1).afterCommit 1).afterIssue 1

theorem single_run : Run GrantStep idle single served := by
  apply Run.cons (.granted agentAttested 1700000060)
  apply Run.cons (look_step granted rfl (by decide +kernel))
  apply Run.cons (removal_step mem_cons_self)
  exact issuance_run (by decide +kernel) (by decide +kernel) (by decide +kernel) (by decide +kernel) (.nil _)

theorem agentGrant_used_once : Run GrantStep idle single served ∧ served.certificates ⟨agentId,1⟩ ≤ 1 := by
  refine ⟨single_run,grant_used_once ⟨rfl,rfl⟩ single_run ?_ _⟩
  simp only [single,issuance,List.cons_append,List.nil_append,List.append_nil,mem_cons,not_mem_nil,or_false,
    forall_eq_or_imp,forall_eq]
  refine ⟨?_,?_,?_,?_,?_,?_⟩
  case refine_3 =>
    intro call removed
    cases removed
    exact ⟨by decide +kernel,rfl⟩
  all_goals
    intro call removed
    cases removed

def raced : CaNode := granted.afterLook.afterLook.afterRemoval.afterRemoval

def servedOnce : CaNode := ((raced.afterProposal 1).afterCommit 1).afterIssue 1

def servedTwice : CaNode := ((servedOnce.afterProposal 2).afterCommit 2).afterIssue 2

def race : List (Transition CaNode GrantEvent) :=
  [⟨idle,.granted agentAttested,granted⟩,⟨granted,.looked (agentCall (.looked agentGrant)),granted.afterLook⟩,
    ⟨granted.afterLook,.looked (agentCall (.looked agentGrant)),granted.afterLook.afterLook⟩,
    ⟨granted.afterLook.afterLook,.removed (agentCall (.looked agentGrant)),granted.afterLook.afterLook.afterRemoval⟩,
    ⟨granted.afterLook.afterLook.afterRemoval,.removed (agentCall (.looked agentGrant)),raced⟩] ++
    (issuance raced 1 ++ (issuance servedOnce 2 ++ []))

/-- Two calls look the grant up before either has removed it. -/
theorem agentGrant_used_twice : Run GrantStep idle race servedTwice ∧ servedTwice.certificates ⟨agentId,1⟩ = 2 := by
  refine ⟨?_,by decide +kernel⟩
  apply Run.cons (.granted agentAttested 1700000060)
  apply Run.cons (look_step granted rfl (by decide +kernel))
  apply Run.cons (look_step granted.afterLook rfl (by decide +kernel))
  apply Run.cons (removal_step mem_cons_self)
  apply Run.cons (removal_step (by decide +kernel))
  apply issuance_run (by decide +kernel) (by decide +kernel) (by decide +kernel) (by decide +kernel)
  exact issuance_run (by decide +kernel) (by decide +kernel) (by decide +kernel) (by decide +kernel) (.nil _)

end FleetosControl
