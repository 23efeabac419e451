import FleetosControl.Attestation.SecureEnclave

/-! Join tokens and nonces. A token is looked up first and consumed later, whatever is there by then; a
nonce is validated under a lock that neither its generation nor the sweep takes. -/
namespace FleetosControl
open Wire KeyValue Std

def tokenLength : Nat := 32

abbrev TokenDraw := {token : Bytes // token.length = tokenLength}

structure BootstrapPayload where
  joinToken : Bytes
  nodeKind : UInt8

structure AttestationQuote where
  quoteType : Int32
  rawQuote : Bytes
  joinToken : String
  agentX25519Pubkey : Bytes

def AttestationQuote.token (quote : AttestationQuote) : Bytes := asBytes quote.joinToken

structure Attested where
  token : Bytes
  nodeKind : NodeKind
  nonce : Bytes
  spiffeId : String
  quoteType : Int32
  agentX25519Pubkey : Bytes
  deriving DecidableEq

structure AttestedIdentity where
  claimedSpiffeId : String
  quoteType : Int32
  pcrDigest : Bytes
  verifiedAtUnix : Int64
  deriving DecidableEq

def NodeKind.ofName : String → Option NodeKind
  | "agent" => some .agent
  | "router" => some .router
  | "gateway" => some .gateway
  | "control" => some .control
  | "fleetctl_proxy" => some .fleetctlProxy
  | _ => none

def NodeKind.asU8 : NodeKind → UInt8
  | .agent => 0
  | .router => 1
  | .gateway => 2
  | .control => 3
  | .fleetctlProxy => 4

def NodeKind.debug : NodeKind → String
  | .agent => "Agent"
  | .router => "Router"
  | .gateway => "Gateway"
  | .control => "Control"
  | .fleetctlProxy => "FleetctlProxy"

def NodeKind.expectedKind : NodeKind → IdKind
  | .agent => .node
  | .router => .router
  | .gateway => .gateway
  | .control => .control
  | .fleetctlProxy => .ctrl

def IdKind.debug : IdKind → String
  | .sa => "Sa"
  | .node => "Node"
  | .router => "Router"
  | .gateway => "Gateway"
  | .control => "Control"
  | .ctrl => "Ctrl"
  | .operator => "Operator"

def computeTokenRecord (draw : TokenDraw) (ttlSecs : UInt16) (now : Int64) (nodeKind : NodeKind) : JoinTokenRecord :=
  ⟨draw.1,nodeKind,now,some (now + ttlSecs.toUInt64.toInt64),false⟩

section
variable [FleetosCore] [Formats]

def validateOnly (storage : Disk) (now : Int64) (token : Bytes) : Except String JoinTokenRecord :=
  match (storage .joinTokens)[token]? with
  | none => .error "join token not found"
  | some bytes =>
    match fromBytes (α := JoinTokenRecord) bytes with
    | .error e => .error ("serialization error: " ++ e)
    | .ok record =>
      if record.consumed then .error "join token already consumed (single-use violation)"
      else if record.expiresAt.any (· < now) then .error "join token error: token expired"
      else .ok record

namespace AdminServer

def generateJoinToken (server : AdminServer) (peer : Peer) (requestId : String) (draw : TokenDraw) (ttlSecs : UInt16)
    (nodeKind : String) : Except Status (AuditedCommand × Bytes) := do
  verifyCaller peer
  server.requireClusterAdminWrite peer
  match NodeKind.ofName nodeKind with
  | none => invalidArgument ("invalid node_kind '" ++ nodeKind ++ "'")
  | some kind =>
    let record := computeTokenRecord draw ttlSecs server.now kind
    pure (⟨.mintJoinToken record,some (server.buildAuditContext peer requestId nodeKind)⟩,record.token)

end AdminServer

def buildBootstrapPayload (draw : TokenDraw) (ttlSecs : UInt16) (now : Int64) (nodeKind : NodeKind) :
    AuditedCommand × BootstrapPayload :=
  let record := computeTokenRecord draw ttlSecs now nodeKind
  (.system (.mintJoinToken record),⟨record.token,nodeKind.asU8⟩)

inductive Mints : AuditedCommand → Bytes → Prop where
  | admin {server : AdminServer} {ttlSecs : UInt16} {audited} :
      server.generateJoinToken peer requestId draw ttlSecs nodeKind = .ok (audited,token) → Mints audited token
  | provisioner {ttlSecs : UInt16} {now : Int64} {audited} :
      buildBootstrapPayload draw ttlSecs now nodeKind = (audited,payload) → Mints audited payload.joinToken

variable {audited : AuditedCommand}

theorem Mints.record (minted : Mints audited token) :
    ∃ record, audited.cmd = .mintJoinToken record ∧ record.token = token := by
  cases minted with
  | admin ok =>
    obtain ⟨_,_,ok⟩ := bind_ok ok
    obtain ⟨_,_,ok⟩ := bind_ok ok
    split at ok
    · cases ok
    · cases ok
      exact ⟨_,rfl,rfl⟩
  | provisioner ok =>
    cases ok
    exact ⟨_,rfl,rfl⟩

theorem Mints.stored (minted : Mints audited token) (advances : Advances before ⟨logId,.normal audited⟩ after) :
    token ∈ after.disk .joinTokens := by
  obtain ⟨record,shape,rfl⟩ := minted.record
  obtain ⟨writes,kind,ok,contents⟩ := advances.applied rfl
  rw [shape] at ok
  cases ok
  rw [contents .joinTokens rfl]
  simp [put,perform,Write.on]

theorem minted_token_presentable_iff {audited : AuditedCommand} {token : Bytes} (minted : Mints audited token)
    {before after : Node} {logId : LogId} (advances : Advances before ⟨logId,.normal audited⟩ after) :
    (∃ quote : AttestationQuote, quote.token = token ∧ quote.token ∈ after.disk .joinTokens) ↔ ValidUtf8 token := by
  rw [← exists_asBytes_iff]
  constructor
  · rintro ⟨quote,presented,_⟩
    exact ⟨quote.joinToken,presented⟩
  · rintro ⟨text,same⟩
    have stored := minted.stored advances
    refine ⟨⟨0,[],text,[]⟩,same,?_⟩
    rwa [← same] at stored

namespace NonceManager

def maxPending : Nat := 1000

def expiry (value : Bytes) : Option Int64 := (u64ofLe value.reverse).map UInt64.toInt64

def sweepExpired (storage : Disk) (now : Int64) : Disk :=
  let expired := (storage .nonces).toList.filter fun entry => (expiry entry.2).any (· < now)
  commit storage (expired.map fun entry => .remove .nonces entry.1)

def generateNonce (storage : Disk) (now : Int64) (draw : Bytes) : Disk × Except String Bytes :=
  let swept := sweepExpired storage now
  if maxPending ≤ (swept .nonces).size then
    (swept,.error ("pending attestation nonces saturated at " ++ toString maxPending))
  else (commit swept [.insert .nonces draw (u64be (now + 300).toUInt64)],.ok draw)

/-- The nonce goes whether it is still good or not; one that is unknown is no error. -/
def validateAndConsume (storage : Disk) (now : Int64) (nonce : Bytes) : Disk × Except String Bool :=
  match (storage .nonces)[nonce]? with
  | none => (storage,.ok false)
  | some value => (commit storage [.remove .nonces nonce],match expiry value with
      | none => .error "nonce error: corrupt nonce expiry"
      | some expiresAt => .ok (now ≤ expiresAt))

end NonceManager

def lookupNonceClaim (storage : Disk) (nonce : Bytes) : Except Status String :=
  match (storage .nonceClaims)[nonce]? with
  | none => permissionDenied "no claimed identity for this nonce"
  | some bytes =>
    match fromUtf8 bytes with
    | some claimed => .ok claimed
    | none => .error ⟨.internal,"corrupt nonce claim"⟩

def expectedPcrs (storage : Disk) (nodeId : String) : Except Status (Option (List PcrValue)) :=
  match (storage .pcrPolicies)[asBytes nodeId]? with
  | none => .ok none
  | some bytes =>
    match fromBytes (α := PcrPolicy) bytes with
    | .error e => .error ⟨.internal,"PCR policy lookup failed: serialization error: " ++ e⟩
    | .ok policy => .ok (if policy.active then some policy.expectedPcrs else none)

variable [ProofCore]

namespace AttestationServer

def requireInsecure (server : AttestationServer) : Except Status Unit :=
  if server.attestationMode = .secure then
    permissionDenied "insecure (join-token) attestation is disabled in secure mode"
  else .ok ()

def sweepClaims (storage : Disk) : Disk :=
  let stale := (storage .nonceClaims).keys.filter fun nonce => !(storage .nonces).contains nonce
  commit storage (stale.map fun nonce => .remove .nonceClaims nonce)

def requestNonce (server : AttestationServer) (draw : Bytes) (claimedSpiffeId : String) : Disk × Except Status Bytes :=
  match server.requireInsecure with
  | .error status => (server.storage,.error status)
  | .ok () =>
    if claimedSpiffeId.isEmpty then (server.storage,invalidArgument "claimed_spiffe_id cannot be empty")
    else match NonceManager.generateNonce (sweepClaims server.storage) server.now draw with
      | (storage,.error e) => (storage,.error ⟨.resourceExhausted,e⟩)
      | (storage,.ok nonce) => (commit storage [.insert .nonceClaims nonce (asBytes claimedSpiffeId)],.ok nonce)

def claimNonce (server : AttestationServer) (nonce : Bytes) : Disk × Except Status String :=
  match NonceManager.validateAndConsume server.storage server.now nonce with
  | (storage,.error e) => (storage,.error ⟨.internal,"nonce validation failed: " ++ e⟩)
  | (storage,.ok false) => (storage,permissionDenied "attestation nonce is invalid or already consumed")
  | (storage,.ok true) => (storage,lookupNonceClaim storage nonce)

def checkTpmQuote (storage : Disk) (quote : TpmQuote) (claimed : String) : Except Status (Bytes × String) := do
  check (ProofCore.verifyQuoteStructure quote quote.nonce) "TPM quote structure verification failed"
  match ← expectedPcrs storage claimed with
  | some expected => check (ProofCore.verifyPcrPolicy quote.pcrSelection expected) "PCR policy mismatch"
  | none => pure ()
  pure (quote.nonce,claimed)

def checkKind (nodeKind : NodeKind) (claimedSpiffeId : String) : Except Status Unit := do
  let claimed ← (parse claimedSpiffeId).mapError fun e =>
    ⟨.invalidArgument,"claimed SPIFFE ID is malformed: " ++ e⟩
  check (FleetosCore.kind claimed = nodeKind.expectedKind) ("claimed SPIFFE ID kind '" ++
    (FleetosCore.kind claimed).debug ++ "' does not match join token node_kind '" ++ nodeKind.debug ++ "'")

def requireToken (server : AttestationServer) (quote : AttestationQuote) : Except Status JoinTokenRecord := do
  server.requireInsecure
  if quote.joinToken.isEmpty then invalidArgument "join_token is required for initial attestation" else
    (validateOnly server.storage server.now quote.token).mapError fun e =>
      ⟨.permissionDenied,"join token validation failed: " ++ e⟩

end AttestationServer

variable {server : AttestationServer} {quote : AttestationQuote}

theorem requireToken_ok (ok : server.requireToken quote = .ok record) : quote.token ∈ server.storage .joinTokens := by
  obtain ⟨_,_,ok⟩ := bind_ok ok
  split at ok
  · cases ok
  have valid := mapError_ok.mp ok
  unfold validateOnly at valid
  split at valid
  · cases valid
  case h_2 bytes stored => exact ExtTreeMap.mem_iff_isSome_getElem?.mpr (by rw [stored]; rfl)

variable [AppleSe] [Postcard TpmQuote]

namespace AttestationServer

def checkAppleSe (now : Int64) (attestation : AppleSeAttestation) (claimed : String) :
    Except Status (Bytes × String) := do
  (verifyAppleSeAttestation attestation attestation.nonce fun _ => now).mapError fun e =>
    ⟨.permissionDenied,"Apple SE attestation failed: " ++ e.display⟩
  pure (attestation.nonce,claimed)

/-- The nonce and the identity claimed with it. The nonce is gone once the evidence has been parsed. -/
def checkEvidence (server : AttestationServer) (quote : AttestationQuote) : Disk × Except Status (Bytes × String) :=
  if quote.quoteType = 0 then
    match fromBytes (α := TpmQuote) quote.rawQuote with
    | .error e => (server.storage,invalidArgument ("failed to parse TPM quote: " ++ e))
    | .ok tpmQuote =>
      let (storage,claimed) := server.claimNonce tpmQuote.nonce
      (storage,claimed >>= checkTpmQuote storage tpmQuote)
  else if quote.quoteType = 1 then
    match fromBytes (α := AppleSeAttestation) quote.rawQuote with
    | .error e => (server.storage,invalidArgument ("failed to parse Apple SE attestation: " ++ e))
    | .ok attestation =>
      let (storage,claimed) := server.claimNonce attestation.nonce
      (storage,claimed >>= checkAppleSe server.now attestation)
  else (server.storage,invalidArgument ("unsupported quote_type: " ++ toString quote.quoteType))

/-- `submit_quote` up to its proposal. -/
def checkQuote (server : AttestationServer) (quote : AttestationQuote) : Disk × Except Status Attested :=
  match server.requireToken quote with
  | .error status => (server.storage,.error status)
  | .ok record =>
    let (storage,evidence) := server.checkEvidence quote
    (storage,do
      let (nonce,claimed) ← evidence
      checkKind record.nodeKind claimed
      pure ⟨quote.token,record.nodeKind,nonce,claimed,quote.quoteType,quote.agentX25519Pubkey⟩)

end AttestationServer

def Attested.consume (attested : Attested) : AuditedCommand := .system (.consumeJoinToken attested.token)

def Attested.grant (attested : Attested) (now : Int64) : SvidGrantRecord :=
  ⟨attested.spiffeId,attested.nodeKind.asU8,now,now + svidGrantTtlSecs,attested.agentX25519Pubkey⟩

def Attested.finish [Postcard SvidGrantRecord] (attested : Attested) (storage : Disk) (now : Int64) :
    Disk × AttestedIdentity :=
  (commit storage [.remove .nonceClaims attested.nonce,
      put .svidGrants (asBytes attested.spiffeId) (attested.grant now)],
    ⟨attested.spiffeId,attested.quoteType,[],now⟩)

theorem finish_grants [Postcard SvidGrantRecord] (attested : Attested) (storage : Disk) (now : Int64) :
    ((attested.finish storage now).1 .svidGrants)[asBytes attested.spiffeId]? = some (toAllocvec (attested.grant now)) := by
  simp [Attested.finish,put,perform,Write.on]

variable {attested : Attested} {storage : Disk}

theorem finish_other [Postcard SvidGrantRecord] {now : Int64} (other : attested.spiffeId ≠ spiffeId) :
    ((attested.finish storage now).1 .svidGrants)[asBytes spiffeId]? = (storage .svidGrants)[asBytes spiffeId]? := by
  have apart : ¬compare (asBytes attested.spiffeId) (asBytes spiffeId) = .eq :=
    fun same => other (asBytes_injective (LawfulEqCmp.eq_of_compare same))
  simp [Attested.finish,put,perform,Write.on,ExtTreeMap.getElem?_insert,apart]

theorem checkQuote_ok (ok : server.checkQuote quote = (storage,.ok attested)) :
    attested.token = quote.token ∧ attested.token ∈ server.storage .joinTokens := by
  unfold AttestationServer.checkQuote at ok
  split at ok
  · cases ok
  case h_2 record valid =>
    obtain ⟨⟨nonce,claimed⟩,_,rest⟩ := bind_ok (Prod.mk.inj ok).2
    obtain ⟨_,_,rest⟩ := bind_ok rest
    cases rest
    exact ⟨rfl,requireToken_ok valid⟩

end

namespace Reference
open Codec

instance appleSe : AppleSe where
  toX509 := plainX509
  toPostcard := postcard ((bytes.pair (bytes.pair (bytes.pair (option bytes)))).iso
    (fun ⟨a,b,c,d⟩ => (a,b,c,d)) (fun (a,b,c,d) => ⟨a,b,c,d⟩) (fun _ => rfl))
  bundledAppleSeRoot := rootCa

end Reference

section
open Reference

def letters : TokenDraw := ⟨List.replicate 32 97,by decide⟩

def highBytes : TokenDraw := ⟨List.replicate 32 255,by decide⟩

def tokenMinted (draw : TokenDraw) : AuditedCommand :=
  ⟨.mintJoinToken (computeTokenRecord draw 3600 (adminServer Disk.empty).now .agent),
    some ((adminServer Disk.empty).buildAuditContext fleetctlProxy "req-1" "agent")⟩

theorem tokenMinted_mints (draw : TokenDraw) : Mints (tokenMinted draw) draw.1 :=
  .admin (show (adminServer Disk.empty).generateJoinToken fleetctlProxy "req-1" draw 3600 "agent" =
    .ok (tokenMinted draw,draw.1) from rfl)

def afterMint (draw : TokenDraw) : Node := (apply (boot Disk.empty) [⟨logIdAt 1,.normal (tokenMinted draw)⟩]).1

theorem afterMint_advances (draw : TokenDraw) :
    Advances (boot Disk.empty) ⟨logIdAt 1,.normal (tokenMinted draw)⟩ (afterMint draw) := advances_apply rfl

theorem letters_presentable : Mints (tokenMinted letters) letters.1 ∧
    ∃ quote : AttestationQuote, quote.token = letters.1 ∧ quote.token ∈ (afterMint letters).disk .joinTokens := by
  have minted := tokenMinted_mints letters
  refine ⟨minted,(minted_token_presentable_iff minted (afterMint_advances letters)).mpr ?_⟩
  decide +kernel

-- No text has the byte 255 in its encoding.
theorem highBytes_unpresentable : Mints (tokenMinted highBytes) highBytes.1 ∧
    highBytes.1 ∈ (afterMint highBytes).disk .joinTokens ∧ ∀ quote : AttestationQuote, quote.token ≠ highBytes.1 := by
  have minted := tokenMinted_mints highBytes
  refine ⟨minted,minted.stored (afterMint_advances highBytes),?_⟩
  intro quote presented
  have valid := (exists_asBytes_iff highBytes.1).mp ⟨quote.joinToken,presented⟩
  revert valid
  decide +kernel

end

open Trace Views

inductive TokenUse where
  | minted (token : Bytes)
  | consumed (token : Bytes)
  deriving DecidableEq

section
variable [FleetosCore] {before after : Node} {entry : Entry} {token : Bytes} {first last : History Node}
  {trace : TokenTrace}

def FleetosCommand.tokenUse : FleetosCommand → Option TokenUse
  | .mintJoinToken record => some (.minted record.token)
  | .consumeJoinToken token => some (.consumed token)
  | _ => none

def Entry.tokenUse (entry : Entry) : Option TokenUse :=
  match entry.payload with
  | .normal audited => audited.cmd.tokenUse
  | _ => none

abbrev TokenTrace := List (Committed Node Entry)

def uses (use : TokenUse) (trace : TokenTrace) : Nat :=
  trace.countP fun transition => transition.label.command.tokenUse = some use

def accepted (token : Bytes) (trace : TokenTrace) : Nat := uses (.consumed token) trace

def minted (token : Bytes) (trace : TokenTrace) : Nat := uses (.minted token) trace

def held (token : Bytes) (node : Node) : Nat := if token ∈ node.disk .joinTokens then 1 else 0

@[simp] theorem uses_nil (use : TokenUse) : uses use [] = 0 := rfl

@[simp] theorem uses_cons (use : TokenUse) (transition : Committed Node Entry)
    (trace : TokenTrace) : uses use (transition::trace) =
      uses use trace + if transition.label.command.tokenUse = some use then 1 else 0 := by
  simp [uses,List.countP_cons]

variable [Formats]

theorem advances_token (advances : Advances before entry after) (token : Bytes) : token ∈ after.disk .joinTokens ↔
      match entry.tokenUse with
      | some (.minted fresh) => fresh = token ∨ token ∈ before.disk .joinTokens
      | some (.consumed used) => used ≠ token ∧ token ∈ before.disk .joinTokens
      | none => token ∈ before.disk .joinTokens := by
  rcases advances.cases with ⟨audited,writes,kind,normal,ok,contents⟩ | ⟨other,same⟩
  · rw [contents .joinTokens rfl]
    simp only [Entry.tokenUse,normal]
    cases command : audited.cmd <;> rw [command] at ok
    case mintJoinToken record =>
      cases ok
      simp [FleetosCommand.tokenUse,put,perform,Write.on]
    case consumeJoinToken used =>
      cases ok
      simp [FleetosCommand.tokenUse,perform,Write.on]
    all_goals
      rw [applyCommand_frame ok .joinTokens (by simp [touches])]
      rfl
  · have none : entry.tokenUse = none := by
      unfold Entry.tokenUse
      split
      case h_1 audited normal => exact (other audited normal).elim
      case h_2 => rfl
    rw [none,same .joinTokens rfl]

variable [ProofCore] [AppleSe] [Postcard TpmQuote]

/-- A control node that held the token proposes its consumption. The rest of the log is arbitrary. -/
inductive QuoteProposes (view : Disk) : AuditedCommand → Prop where
  | quoted {server : AttestationServer} {storage} :
      server.storage .joinTokens = view .joinTokens → server.checkQuote quote = (storage,.ok attested) →
      QuoteProposes view attested.consume
  | other {audited : AuditedCommand} : (∀ token, audited.cmd.tokenUse ≠ some (.consumed token)) →
      QuoteProposes view audited

def Entry.QuoteProposes (view : Node) (entry : Entry) : Prop :=
  ∀ audited, entry.payload = .normal audited → FleetosControl.QuoteProposes view.disk audited

abbrev TokenStep := CommitStep Entry.QuoteProposes Advances

theorem proposed_token_held (proposed : entry.QuoteProposes view)
    (consumes : entry.tokenUse = some (.consumed token)) : token ∈ view.disk .joinTokens := by
  unfold Entry.tokenUse at consumes
  split at consumes
  case h_2 => cases consumes
  case h_1 audited normal =>
    cases proposed audited normal with
    | quoted same accepted =>
      cases consumes
      rw [← same]
      exact (checkQuote_ok accepted).2
    | other apart => exact (apart token consumes).elim

def FindsToken (token : Bytes) (transition : Committed Node Entry) : Prop :=
  transition.label.command.tokenUse = some (.consumed token) → token ∈ transition.before.current.disk .joinTokens

theorem held_step (advances : Advances before entry after)
    (finds : entry.tokenUse = some (.consumed token) → token ∈ before.disk .joinTokens) :
    (if entry.tokenUse = some (.consumed token) then 1 else 0) + held token after ≤
      (if entry.tokenUse = some (.minted token) then 1 else 0) + held token before := by
  have effect := advances_token advances token
  unfold held
  cases use : entry.tokenUse with
  | none => simp_all
  | some kind =>
    cases kind with
    | minted fresh =>
      by_cases same : fresh = token
      · simp_all
      · simp_all
    | consumed used =>
      by_cases same : used = token
      · simp_all
      · simp_all

theorem accepted_le_minted (token : Bytes) (run : Run TokenStep first trace last)
    (finds : ∀ transition ∈ trace, FindsToken token transition) :
    accepted token trace + held token last.current ≤ minted token trace + held token first.current := by
  induction run with
  | nil => simp [accepted,minted]
  | @cons state next last label rest taken run ih =>
    have later := ih fun transition member => finds transition (mem_cons_of_mem _ member)
    obtain ⟨_,_,advances,_⟩ := taken.cases
    have step := held_step advances (finds _ mem_cons_self)
    simp only [accepted,minted,uses_cons] at later ⊢
    omega

def Current (token : Bytes) (history : History Node) : Prop :=
  ∀ view, history.Seen view → token ∈ view.disk .joinTokens → token ∈ history.current.disk .joinTokens

theorem current_step {history : History Node} (advances : Advances history.current entry next)
    (keeps : entry.tokenUse ≠ some (.consumed token)) (current : Current token history) :
    Current token (history.extend next) := by
  intro view seen shown
  rcases (History.seen_extend history next view).mp seen with rfl | earlier
  · exact shown
  have before := current view earlier shown
  have effect := advances_token advances token
  rw [History.extend_current,effect]
  split
  · exact .inr before
  case h_2 used use =>
    refine ⟨?_,before⟩
    rintro rfl
    exact keeps use
  · exact before

theorem finds_of_accepted_once (run : Run TokenStep first trace last) (current : Current token first)
    (once : accepted token trace ≤ 1) : ∀ transition ∈ trace, FindsToken token transition := by
  induction run with
  | nil => simp
  | @cons state next last label rest taken run ih =>
    obtain ⟨seen,proposed,advances,extended⟩ := taken.cases
    simp only [accepted,uses_cons] at once
    intro transition member
    by_cases consumes : label.command.tokenUse = some (.consumed token)
    · rcases mem_cons.mp member with rfl | later
      · intro _
        exact current label.view seen (proposed_token_held proposed consumes)
      · intro again
        have none : uses (.consumed token) rest = 0 := by
          rw [if_pos consumes] at once
          omega
        have absent := List.countP_eq_zero.mp none transition later
        simp [again] at absent
    · rcases mem_cons.mp member with rfl | later
      · intro again
        exact (consumes again).elim
      · rw [if_neg consumes] at once
        have kept := current_step advances consumes current
        rw [← extended] at kept
        exact ih kept once transition later

theorem accepted_once_iff {start : Node} {last : History Node} {trace : TokenTrace} {token : Bytes}
    (run : Run TokenStep (.fresh start) trace last) (drawnOnce : minted token trace + held token start ≤ 1) :
    accepted token trace ≤ 1 ↔ ∀ transition ∈ trace, FindsToken token transition := by
  constructor
  · have current : Current token (.fresh start) := by
      intro view seen shown
      rwa [(History.seen_fresh start view).mp seen] at shown
    exact finds_of_accepted_once run current
  · intro finds
    have paid := accepted_le_minted token run finds
    simp only [History.fresh_current] at paid
    omega

end

section
open Reference

def neighbour : String := "spiffe://data.example.internal/ns/system/node/agent-2"

def lettersMinted : Node := afterMint letters

-- A control node after its agent has asked for a nonce.
def challenger (nonce : Bytes) (claimed : String) : AttestationServer :=
  ⟨(AttestationServer.requestNonce ⟨lettersMinted.disk,.insecure,some dataControl,86400,1700000060⟩ nonce claimed).1,.insecure,
    some dataControl,86400,1700000061⟩

def lettersQuote (nonce : Bytes) : AttestationQuote :=
  ⟨0,toAllocvec (⟨[1],[2],nonce,[],[3]⟩ : TpmQuote),String.ofList (List.replicate 32 'a'),[9]⟩

def attestedAs (nonce : Bytes) (claimed : String) : Attested := ⟨letters.1,.agent,nonce,claimed,0,[9]⟩

def mintLetters : Entry := ⟨logIdAt 1,.normal (tokenMinted letters)⟩

def consumeLetters (index : UInt64) : Entry := commandAt index (.consumeJoinToken letters.1)

def lettersUsed : Node := (apply lettersMinted [consumeLetters 2]).1

def lettersUsedTwice : Node := (apply lettersUsed [consumeLetters 3]).1

theorem agent_attested : ((challenger [7] agentId).checkQuote (lettersQuote [7])).2 =
    .ok (attestedAs [7] agentId) := by decide +kernel

theorem neighbour_attested : ((challenger [8] neighbour).checkQuote (lettersQuote [8])).2 =
    .ok (attestedAs [8] neighbour) := by decide +kernel

theorem consumeLetters_proposed (index : UInt64)
    (shown : (challenger nonce claimed).storage .joinTokens = lettersMinted.disk .joinTokens)
    (attested : ((challenger nonce claimed).checkQuote (lettersQuote nonce)).2 = .ok (attestedAs nonce claimed)) :
    (consumeLetters index).QuoteProposes lettersMinted := by
  intro audited normal
  cases normal
  exact .quoted shown (Prod.ext rfl attested)

theorem mintLetters_proposed (view : Node) : mintLetters.QuoteProposes view := by
  intro audited normal
  cases normal
  exact .other (by simp [tokenMinted,FleetosCommand.tokenUse])

def singleUse : TokenTrace :=
  [⟨⟨boot Disk.empty,[]⟩,⟨boot Disk.empty,mintLetters⟩,⟨lettersMinted,[boot Disk.empty]⟩⟩,
    ⟨⟨lettersMinted,[boot Disk.empty]⟩,⟨lettersMinted,consumeLetters 2⟩,⟨lettersUsed,[lettersMinted,boot Disk.empty]⟩⟩]

def doubleUse : TokenTrace :=
  singleUse ++ [⟨⟨lettersUsed,[lettersMinted,boot Disk.empty]⟩,⟨lettersMinted,consumeLetters 3⟩,
    ⟨lettersUsedTwice,[lettersUsed,lettersMinted,boot Disk.empty]⟩⟩]

theorem consumes_letters : Advances lettersMinted (consumeLetters 2) lettersUsed := advances_apply (by decide +kernel)

theorem singleUse_run :
    Run TokenStep (.fresh (boot Disk.empty)) singleUse ⟨lettersUsed,[lettersMinted,boot Disk.empty]⟩ := by
  apply Run.cons (commitStep (.inl rfl) (mintLetters_proposed _) (afterMint_advances letters))
  apply Run.cons (commitStep (.inl rfl) (consumeLetters_proposed 2 rfl agent_attested) consumes_letters)
  exact .nil _

theorem doubleUse_run : Run TokenStep (.fresh (boot Disk.empty)) doubleUse
    ⟨lettersUsedTwice,[lettersUsed,lettersMinted,boot Disk.empty]⟩ := by
  apply Run.cons (commitStep (.inl rfl) (mintLetters_proposed _) (afterMint_advances letters))
  apply Run.cons (commitStep (.inl rfl) (consumeLetters_proposed 2 rfl agent_attested) consumes_letters)
  apply Run.cons (commitStep (.inr mem_cons_self) (consumeLetters_proposed 3 rfl neighbour_attested)
    (advances_apply (by decide +kernel)))
  exact .nil _

theorem letters_accepted_once :
    Run TokenStep (.fresh (boot Disk.empty)) singleUse ⟨lettersUsed,[lettersMinted,boot Disk.empty]⟩ ∧
      accepted letters.1 singleUse ≤ 1 := by
  refine ⟨singleUse_run,(accepted_once_iff singleUse_run (by decide +kernel)).mpr ?_⟩
  simp only [singleUse,mem_cons,not_mem_nil,or_false,forall_eq_or_imp,forall_eq]
  refine ⟨?_,?_⟩
  · intro use
    cases use
  · intro _
    exact (tokenMinted_mints letters).stored (afterMint_advances letters)

/-- Two agents present one token before either of them has consumed it, and both end with a grant. -/
theorem letters_accepted_twice :
    Run TokenStep (.fresh (boot Disk.empty)) doubleUse ⟨lettersUsedTwice,[lettersUsed,lettersMinted,boot Disk.empty]⟩ ∧
      minted letters.1 doubleUse = 1 ∧ accepted letters.1 doubleUse = 2 ∧
      ∀ attested ∈ [attestedAs [7] agentId,attestedAs [8] neighbour], ∀ storage now,
        ((attested.finish storage now).1 .svidGrants)[asBytes attested.spiffeId]? =
          some (toAllocvec (attested.grant now)) :=
  ⟨doubleUse_run,by decide +kernel,by decide +kernel,fun attested _ storage now => finish_grants attested storage now⟩

end

/-- A call of `validate_and_consume` that holds the lock and has found the nonce. -/
structure Validation where
  nonce : Bytes
  expiresAt : Int64
  removed : Bool

structure NonceStore where
  clock : Int64
  pending : Bytes → Option Int64
  validating : Option Validation
  -- what the sweeps under way have collected
  expiredKeys : List Bytes
  -- what has happened: the nonces generated, removed by a validation, and accepted
  generated : Bytes → Option Int64
  consumed : List Bytes
  accepted : List Bytes

inductive NonceEvent where
  | ticked
  | generated (nonce : Bytes)
  | unknown (nonce : Bytes)
  | found (nonce : Bytes)
  | removed
  | answered (accepted : Bool)
  | failed
  | collected (nonce : Bytes)
  | swept (nonce : Bytes)

inductive NonceStep : NonceStore → NonceEvent → NonceStore → Prop where
  | ticked {store : NonceStore} {now : Int64} : store.clock ≤ now → NonceStep store .ticked { store with clock := now }
  | generated {store : NonceStore} {nonce} (expiresAt : Int64) : store.generated nonce = none →
      NonceStep store (.generated nonce) { store with
        pending := Function.update store.pending nonce (some expiresAt)
        generated := Function.update store.generated nonce (some expiresAt) }
  | unknown {store : NonceStore} {nonce} : store.validating = none → store.pending nonce = none →
      NonceStep store (.unknown nonce) store
  | found {store : NonceStore} {nonce} {expiresAt : Int64} : store.validating = none →
      store.pending nonce = some expiresAt →
      NonceStep store (.found nonce) { store with validating := some ⟨nonce,expiresAt,false⟩ }
  | removed {store : NonceStore} {validation} : store.validating = some validation →
      NonceStep store .removed { store with
        pending := Function.update store.pending validation.nonce none
        validating := some { validation with removed := true }
        consumed := validation.nonce :: store.consumed }
  | answered {store : NonceStore} {validation} : store.validating = some validation → validation.removed = true →
      NonceStep store (.answered (store.clock ≤ validation.expiresAt)) { store with
        validating := none
        accepted := if store.clock ≤ validation.expiresAt then validation.nonce :: store.accepted else store.accepted }
  -- a lookup or a removal that the storage has refused
  | failed {store} : NonceStep store .failed { store with validating := none }
  | collected {store : NonceStore} {nonce} {expiresAt now : Int64} : store.pending nonce = some expiresAt →
      expiresAt < now → now ≤ store.clock →
      NonceStep store (.collected nonce) { store with expiredKeys := nonce :: store.expiredKeys }
  | swept {store : NonceStore} {nonce} : nonce ∈ store.expiredKeys → NonceStep store (.swept nonce) { store with
        pending := Function.update store.pending nonce none
        expiredKeys := store.expiredKeys.erase nonce }

def NonceStore.Shows (store : NonceStore) (storage : Disk) : Prop :=
  ∀ nonce, store.pending nonce = (storage .nonces)[nonce]?.bind NonceManager.expiry

/-- A call of `validate_and_consume` that nothing interrupts is a run. -/
theorem validateAndConsume_run {store : NonceStore} (shows : store.Shows storage) (free : store.validating = none)
    (ok : NonceManager.validateAndConsume storage store.clock nonce = (after,.ok good)) :
    ∃ trace last, Run NonceStep store trace last ∧ last.Shows after ∧
      last.accepted = if good then nonce :: store.accepted else store.accepted := by
  have pending := shows nonce
  unfold NonceManager.validateAndConsume at ok
  split at ok
  case h_1 absent =>
    cases ok
    rw [absent] at pending
    exact ⟨_,_,.cons (.unknown free pending) (.nil _),shows,rfl⟩
  case h_2 value stored =>
    rw [stored] at pending
    cases read : NonceManager.expiry value with
    | none =>
      rw [read] at ok
      cases ok
    | some expiresAt =>
      rw [read] at ok
      cases ok
      refine ⟨_,_,.cons (.found free (pending.trans read)) (.cons (.removed rfl) (.cons (.answered rfl rfl) (.nil _))),?_,
        by simp⟩
      intro other
      by_cases same : other = nonce
      · simp [same,commit,perform,Write.on]
      · simp [same,shows other,commit,perform,Write.on,ExtTreeMap.getElem?_erase,Ne.symm same]

structure NoncesSound (store : NonceStore) : Prop where
  pending : ∀ nonce expiresAt, store.pending nonce = some expiresAt →
    store.generated nonce = some expiresAt ∧ nonce ∉ store.accepted
  validating : ∀ validation ∈ store.validating, store.generated validation.nonce = some validation.expiresAt ∧
    validation.nonce ∉ store.accepted ∧ (validation.removed = true → store.pending validation.nonce = none)
  accepted : store.accepted.Nodup ∧ ∀ nonce ∈ store.accepted, (store.generated nonce).isSome
  expired : ∀ nonce ∈ store.expiredKeys, ∃ expiresAt, store.generated nonce = some expiresAt ∧ expiresAt < store.clock
  kept : ∀ nonce expiresAt, store.generated nonce = some expiresAt →
    store.pending nonce = some expiresAt ∨ nonce ∈ store.consumed ∨ expiresAt < store.clock

theorem NonceStep.sound (step : NonceStep before event after) (sound : NoncesSound before) : NoncesSound after := by
  obtain ⟨pending,validating,⟨once,generated⟩,expired,kept⟩ := sound
  cases step with
  | ticked later =>
    refine ⟨pending,validating,⟨once,generated⟩,?_,?_⟩
    · intro nonce member
      obtain ⟨expiresAt,found,early⟩ := expired nonce member
      exact ⟨expiresAt,found,Int64.lt_of_lt_of_le early later⟩
    · intro nonce expiresAt found
      exact (kept nonce expiresAt found).imp_right fun other => other.imp_right (Int64.lt_of_lt_of_le · later)
  | generated fresh =>
    refine ⟨?_,?_,⟨once,?_⟩,?_,?_⟩ <;> grind [Function.update_apply]
  | unknown => exact ⟨pending,validating,⟨once,generated⟩,expired,kept⟩
  | found free found =>
    refine ⟨pending,?_,⟨once,generated⟩,expired,kept⟩
    rintro _ ⟨⟩
    exact ⟨(pending _ _ found).1,(pending _ _ found).2,nofun⟩
  | removed holds => refine ⟨?_,?_,⟨once,generated⟩,expired,?_⟩ <;> grind [Function.update_apply]
  | answered holds removed => refine ⟨?_,?_,⟨?_,?_⟩,expired,kept⟩ <;> grind
  | failed => exact ⟨pending,nofun,⟨once,generated⟩,expired,kept⟩
  | collected found early now =>
    refine ⟨pending,validating,⟨once,generated⟩,?_,kept⟩
    have late := Int64.lt_of_lt_of_le early now
    grind
  | swept member => refine ⟨?_,?_,⟨once,generated⟩,?_,?_⟩ <;> grind [Function.update_apply,List.mem_of_mem_erase]

def NonceStore.fresh (clock : Int64) : NonceStore := ⟨clock,fun _ => none,none,[],fun _ => none,[],[]⟩

theorem fresh_sound (clock : Int64) : NoncesSound (.fresh clock) := by
  constructor <;> simp [NonceStore.fresh]

/-- A nonce is accepted once and in time, and as long as it is good it is there or was handed to a validation. -/
theorem nonces_single_use {clock : Int64} {trace : List (Transition NonceStore NonceEvent)} {last : NonceStore}
    (run : Run NonceStep (.fresh clock) trace last) :
    last.accepted.Nodup ∧
    (∀ transition ∈ trace, ∀ nonce ∈ transition.after.accepted, nonce ∉ transition.before.accepted →
      ∃ expiresAt, transition.before.generated nonce = some expiresAt ∧ transition.before.clock ≤ expiresAt) ∧
    ∀ nonce expiresAt, last.generated nonce = some expiresAt → last.clock ≤ expiresAt →
      last.pending nonce = some expiresAt ∨ nonce ∈ last.consumed := by
  obtain ⟨each,final⟩ := run.invariant NoncesSound (fun _ => True) (fun _ _ _ step _ => step.sound) (fresh_sound clock)
    fun _ _ => trivial
  refine ⟨final.accepted.1,?_,?_⟩
  · intro transition member nonce listed unlisted
    have sound := (each transition member).1
    have step := run.step_of_mem transition member
    obtain ⟨before,event,after⟩ := transition
    dsimp only at listed unlisted sound step ⊢
    cases step
    case answered validation holds removed =>
      split at listed
      case isFalse => exact absurd listed unlisted
      case isTrue good =>
        obtain rfl := (mem_cons.mp listed).resolve_right unlisted
        exact ⟨_,(sound.validating _ holds).1,good⟩
    all_goals exact absurd listed unlisted
  · intro nonce expiresAt known good
    rcases final.kept nonce expiresAt known with there | taken | late
    · exact .inl there
    · exact .inr taken
    · exact absurd good (Int64.not_le.mpr late)

theorem nonce_accepted_once : ∃ trace last, Run NonceStep (.fresh 0) trace last ∧ last.accepted = [[7]] ∧
    last.accepted.Nodup := by
  have run : ∃ trace last, Run NonceStep (.fresh 0) trace last ∧ last.accepted = [[7]] := by
    have generated := @NonceStep.generated (.fresh 0) [7] 300 rfl
    exact ⟨_,_,.cons generated (.cons (@NonceStep.found _ [7] 300 rfl (by decide)) (.cons (.removed rfl)
      (.cons (.answered rfl rfl) (.nil _)))),by decide⟩
  obtain ⟨trace,last,run,accepted⟩ := run
  exact ⟨trace,last,run,accepted,(nonces_single_use run).1⟩

end FleetosControl
