import FleetosControl.Raft.Proposals
import FleetosControl.Secrets.Crypto
import FleetosControl.Watch.Snapshot

/-! What has become of a secret, and who is told. An identity is given the value stored last, if the
last request that decides about the identity lets it in. -/
namespace FleetosControl
open Wire KeyValue Trace Latest Std

section
variable [FleetosCore]

inductive SecretRequest where
  | store (key : String) (plaintext : Bytes) (authorized : List SpiffeId)
  | grant (key : String) (spiffeId : SpiffeId)
  | revoke (key : String) (spiffeId : SpiffeId)
  | elsewhere

namespace SecretRequest

def about (key : String) : SecretRequest → Bool
  | .store named _ _ | .grant named _ | .revoke named _ => named = key
  | .elsewhere => false

def stores (key : String) : SecretRequest → Option Bytes
  | .store named plaintext _ => if named = key then some plaintext else none
  | _ => none

/-- A store decides about everyone, by listing or omitting them. -/
def decides (key : String) (id : SpiffeId) : SecretRequest → Option Bool
  | .store named _ authorized => if named = key then some (authorized.contains id) else none
  | .grant named spiffeId => if named = key ∧ spiffeId = id then some true else none
  | .revoke named spiffeId => if named = key ∧ spiffeId = id then some false else none
  | .elsewhere => none

theorem stores_none {request : SecretRequest} (other : request.about key = false) : request.stores key = none := by
  cases request <;> simp_all [about,stores]

theorem decides_none {request : SecretRequest} (other : request.about key = false) (id : SpiffeId) :
    request.decides key id = none := by
  cases request <;> simp_all [about,decides]

end SecretRequest

def FleetosCommand.LeavesSecrets : FleetosCommand → Prop
  | .applyManifests updates => ∀ update ∈ updates, update.targetKeyspace ≠ "secrets"
  | cmd => .secrets ∉ cmd.touches

end

section
variable [FleetosCore] [Formats] [Aead] [Postcard EnvelopeSecret]

/-- The request that an entry carries. Its envelope was sealed by `prepare_secret` under the master key. -/
inductive Carries (masterKey : FileMasterKey) : EntryPayload → SecretRequest → Prop where
  | store {drawn key target plaintext envelope acl lastApplied authorized audit} :
      prepareSecret (sealEnvelope masterKey drawn) key plaintext authorized = .ok (envelope,acl) →
      Carries masterKey (.normal ⟨.storeSecret ⟨key,envelope,acl,lastApplied⟩ target,audit⟩)
        (.store key plaintext authorized)
  | grant {tenantId key text id audit} : parse text = .ok id →
      Carries masterKey (.normal ⟨.grantSecretAccess tenantId key text,audit⟩) (.grant key id)
  | revoke {tenantId key text id audit} : parse text = .ok id →
      Carries masterKey (.normal ⟨.revokeSecretAccess tenantId key text,audit⟩) (.revoke key id)
  | elsewhere {payload} : (∀ audited, payload = .normal audited → audited.cmd.LeavesSecrets) →
      Carries masterKey payload .elsewhere

namespace SecretAcl

theorem display_inj : display left = display right ↔ left = right := by
  constructor
  · intro same
    have parsed := congrArg parse same
    simpa using parsed
  · exact congrArg _

theorem compare_display (left right : SpiffeId) :
    (compare (display left) (display right) == .eq) = decide (left = right) := by
  rw [Bool.eq_iff_iff]
  simp [display_inj]

@[simp] theorem isAuthorized_new (key : String) (id : SpiffeId) : SecretAcl.new.isAuthorized key id = false := by
  simp [isAuthorized,new]

theorem isAuthorized_grant (acl : SecretAcl) (key : String) (granted id : SpiffeId) :
    (acl.grant key granted).isAuthorized key id = if granted = id then true else acl.isAuthorized key id := by
  cases found : acl.entries[key]? with
  | none => simp [isAuthorized,grant,found,ExtTreeSet.contains_insert,compare_display]
  | some set =>
    by_cases same : granted = id <;>
      simp [isAuthorized,grant,found,ExtTreeSet.contains_insert,compare_display,same]

theorem isAuthorized_revoke (acl : SecretAcl) (key : String) (revoked id : SpiffeId) :
    (acl.revoke key revoked).isAuthorized key id = if revoked = id then false else acl.isAuthorized key id := by
  unfold revoke
  cases found : acl.entries[key]? with
  | none => simp [isAuthorized,found]
  | some set =>
    have erased := ExtTreeSet.contains_erase (t := set) (k := display revoked) (a := display id)
    simp only
    split
    case isTrue empty =>
      -- the entry is dropped, and nobody is left on the set
      rw [ExtTreeSet.isEmpty_iff.mp empty] at erased
      simp_all [isAuthorized,compare_display,bne]
    case isFalse => simp_all [isAuthorized,compare_display,bne]

theorem isAuthorized_grants (key : String) (authorized : List SpiffeId) (acl : SecretAcl) (id : SpiffeId) :
    (authorized.foldl (fun acl granted => acl.grant key granted) acl).isAuthorized key id =
      (authorized.contains id || acl.isAuthorized key id) := by
  induction authorized generalizing acl with
  | nil => simp
  | cons granted authorized ih =>
    rw [List.foldl_cons,ih,isAuthorized_grant]
    by_cases same : granted = id
    · simp [same]
    · simp [same,Ne.symm same]

end SecretAcl

structure Holding (masterKey : FileMasterKey) (key : String) (id : SpiffeId) (disk : Disk) (value : Option Bytes)
    (allowed : Bool) : Prop where
  envelope : (disk .secrets)[asBytes ("secret:" ++ key)]?.map (openEnvelope masterKey) = value.map .ok
  acl : ∃ found, readRecord SecretAcl disk .secrets (aclKey key) = .ok found ∧
    (found.getD .new).isAuthorized key id = allowed

def fetchOutcome (key : String) (id : SpiffeId) (value : Option Bytes) (allowed : Bool) : Except SecretError Bytes :=
  if allowed then value.elim (.error (.notFound key)) .ok else .error (.accessDenied key (display id))

section
variable {masterKey : FileMasterKey} {key : String} {id : SpiffeId} {disk before after : Disk} {value : Option Bytes}
  {allowed : Bool} {writes : List Write} {kind : ChangeKind} {plaintext : Bytes} {trace : List (Transition Node Entry)}
  {requests : List SecretRequest}

theorem Holding.empty (empty : disk .secrets = ∅) : Holding masterKey key id disk none false where
  envelope := by simp [empty]
  acl := ⟨none,by simp [readRecord,empty],by simp⟩

theorem Holding.congr
    (secret : (left .secrets)[asBytes ("secret:" ++ key)]? = (right .secrets)[asBytes ("secret:" ++ key)]?)
    (acl : (left .secrets)[aclKey key]? = (right .secrets)[aclKey key]?)
    (holding : Holding masterKey key id right value allowed) : Holding masterKey key id left value allowed where
  envelope := by rw [secret,holding.envelope]
  acl := by
    obtain ⟨found,read,listed⟩ := holding.acl
    exact ⟨found,by simpa only [readRecord,acl] using read,listed⟩

theorem loadAcl_of_read (read : readRecord SecretAcl disk .secrets (aclKey key) = .ok found) :
    loadAcl disk key = .ok (found.getD .new) := by
  unfold readRecord at read
  unfold loadAcl
  cases stored : (disk .secrets)[aclKey key]? with
  | none =>
    rw [stored] at read
    cases read
    rfl
  | some bytes =>
    rw [stored] at read
    cases decoded : fromBytes (α := SecretAcl) bytes with
    | error e => simp [decoded,serErr,Except.mapError,Except.map] at read
    | ok acl =>
      simp only [decoded,serErr,Except.mapError,Except.map,Except.ok.injEq] at read
      simp [decoded,← read,Except.mapError]

theorem Holding.fetchSecret (holding : Holding masterKey key id disk value allowed) :
    fetchSecret (openEnvelope masterKey) disk key id = fetchOutcome key id value allowed := by
  obtain ⟨found,read,listed⟩ := holding.acl
  have opened := holding.envelope
  unfold FleetosControl.fetchSecret
  rw [loadAcl_of_read read]
  cases allowed with
  | false => simp [SecretAcl.authorize,listed,fetchOutcome,Bind.bind,Except.bind]
  | true =>
    cases stored : (disk .secrets)[asBytes ("secret:" ++ key)]? <;>
      cases value <;>
      simp_all [SecretAcl.authorize,fetchOutcome,Bind.bind,Except.bind]

theorem advances_leavesSecrets {before after entry} (advances : Advances before entry after)
    (leaves : ∀ audited, entry.payload = .normal audited → audited.cmd.LeavesSecrets) :
    after.disk .secrets = before.disk .secrets := by
  rcases advances.cases with ⟨⟨cmd,audit⟩,writes,kind,normal,ok,contents⟩ | ⟨_,same⟩
  case inr => exact same .secrets rfl
  have spared : cmd.LeavesSecrets := leaves _ normal
  by_cases manifests : ∃ updates, cmd = .applyManifests updates
  · obtain ⟨updates,rfl⟩ := manifests
    cases ok
    rw [contents .secrets rfl]
    apply commit_frame
    intro write member
    obtain ⟨update,inside,made⟩ := mem_filterMap.mp member
    obtain ⟨keyspace,named,rfl⟩ := map_eq_some_iff.mp made
    rintro rfl
    unfold manifestKeyspace at named
    split at named <;> cases named
    exact spared update inside ‹_›
  · have untouched : .secrets ∉ cmd.touches := by
      cases cmd <;> first | exact spared | exact absurd ⟨_,rfl⟩ manifests
    rw [contents .secrets rfl]
    exact applyCommand_frame ok .secrets untouched

theorem updateSecretAcl_effect {change : SecretAcl → SpiffeId → SecretAcl}
    (parsed : parse text = .ok spiffe)
    (ok : updateSecretAcl before changed text change = .ok (writes,kind))
    (contents : after .secrets = commit before writes .secrets) :
    (∃ found, readRecord SecretAcl before .secrets (aclKey changed) = .ok found ∧
      readRecord SecretAcl after .secrets (aclKey changed) = .ok (some (change (found.getD .new) spiffe))) ∧
    (∀ key, changed ≠ key → (after .secrets)[aclKey key]? = (before .secrets)[aclKey key]?) ∧
    ∀ key, (after .secrets)[asBytes ("secret:" ++ key)]? = (before .secrets)[asBytes ("secret:" ++ key)]? := by
  obtain ⟨found,read,ok⟩ := bind_ok ok
  obtain ⟨again,reparsed,ok⟩ := bind_ok ok
  obtain rfl : spiffe = again := Except.ok.inj (parsed.symm.trans (mapError_ok.mp reparsed))
  cases ok
  refine ⟨⟨found,read,readRecord_of_lookup ?_⟩,fun key other => ?_,fun key => ?_⟩
  · rw [contents]
    simp [put,perform,Write.on]
  · rw [contents]
    apply commit_lookup_other
    intro write member _
    rw [mem_singleton.mp member]
    simpa [put,Write.key,aclKey] using other
  · rw [contents]
    apply commit_lookup_other
    intro write member _
    rw [mem_singleton.mp member]
    exact (secretKey_ne_aclKey key changed).symm

theorem Holding.updateSecretAcl {verdict : Bool} {change : SecretAcl → SpiffeId → SecretAcl}
    (parsed : parse text = .ok spiffe) (judges : ∀ acl : SecretAcl,
      (change acl spiffe).isAuthorized changed id = if spiffe = id then verdict else acl.isAuthorized changed id)
    (ok : updateSecretAcl before changed text change = .ok (writes,kind))
    (contents : after .secrets = commit before writes .secrets)
    (holding : Holding masterKey key id before value allowed) :
    Holding masterKey key id after value ((if changed = key ∧ spiffe = id then some verdict else none).getD allowed) := by
  obtain ⟨⟨found,read,written⟩,others,secret⟩ := updateSecretAcl_effect parsed ok contents
  by_cases same : changed = key
  · subst same
    obtain ⟨kept,again,listed⟩ := holding.acl
    obtain rfl : found = kept := Except.ok.inj (read.symm.trans again)
    refine ⟨by rw [secret,holding.envelope],_,written,?_⟩
    rw [Option.getD_some,judges,listed]
    by_cases named : spiffe = id <;> simp [named]
  · rw [if_neg fun both => same both.1]
    exact .congr (secret key) (others key same) holding

theorem Holding.stored {drawn target envelope acl lastApplied authorized}
    (prepared : prepareSecret (sealEnvelope masterKey drawn) key plaintext authorized = .ok (envelope,acl))
    (ok : applyCommand before (.storeSecret ⟨key,envelope,acl,lastApplied⟩ target) = .ok (writes,kind))
    (contents : after .secrets = commit before writes .secrets) :
    Holding masterKey key id after (some plaintext) (authorized.contains id) := by
  obtain ⟨bytes,sealed,prepared⟩ := bind_ok prepared
  cases prepared
  cases ok
  have shape : after .secrets = ((before .secrets).insert (asBytes ("secret:" ++ key)) envelope).insert (aclKey key)
      (toAllocvec (authorized.foldl (fun acl granted => acl.grant key granted) SecretAcl.new)) := by
    rw [contents]
    simp only [commit_cons,commit_nil,perform,Write.on,Write.table_insert,Function.update_self]
  have secret : (after .secrets)[asBytes ("secret:" ++ key)]? = some envelope := by
    rw [shape]
    exact insert_eq_some.mpr (.inr ⟨secretKey_ne_aclKey _ _,insert_eq_some.mpr (.inl ⟨rfl,rfl⟩)⟩)
  have list : (after .secrets)[aclKey key]? =
      some (toAllocvec (authorized.foldl (fun acl granted => acl.grant key granted) SecretAcl.new)) := by
    rw [shape]
    exact insert_eq_some.mpr (.inl ⟨rfl,rfl⟩)
  refine ⟨?_,_,readRecord_of_lookup list,?_⟩
  · rw [secret]
    simp [openEnvelope_sealEnvelope sealed]
  · simp [SecretAcl.isAuthorized_grants]

theorem Holding.storeSecret {drawn stored target envelope acl lastApplied authorized}
    (prepared : prepareSecret (sealEnvelope masterKey drawn) stored plaintext authorized = .ok (envelope,acl))
    (ok : applyCommand before (.storeSecret ⟨stored,envelope,acl,lastApplied⟩ target) = .ok (writes,kind))
    (contents : after .secrets = commit before writes .secrets)
    (holding : Holding masterKey key id before value allowed) :
    Holding masterKey key id after (((SecretRequest.store stored plaintext authorized).stores key).or value)
      (((SecretRequest.store stored plaintext authorized).decides key id).getD allowed) := by
  by_cases same : stored = key
  · subst same
    have own : Holding masterKey stored id after (some plaintext) (authorized.contains id) :=
      .stored prepared ok contents
    simpa [SecretRequest.stores,SecretRequest.decides] using own
  · have unstored : (SecretRequest.store stored plaintext authorized).about key = false := by
      simpa [SecretRequest.about] using same
    cases ok
    rw [SecretRequest.stores_none unstored,SecretRequest.decides_none unstored]
    refine .congr ?_ ?_ holding
    · rw [contents]
      apply commit_lookup_other
      intro write member _
      rcases mem_cons.mp member with rfl | member
      · simpa [Write.key] using same
      · rw [mem_singleton.mp member]
        exact (secretKey_ne_aclKey key stored).symm
    · rw [contents]
      apply commit_lookup_other
      intro write member _
      rcases mem_cons.mp member with rfl | member
      · exact secretKey_ne_aclKey stored key
      · rw [mem_singleton.mp member]
        simpa [Write.key,aclKey] using same

theorem Holding.advances {before after entry request} (advances : Advances before entry after)
    (carries : Carries masterKey entry.payload request)
    (holding : Holding masterKey key id before.disk value allowed) :
    Holding masterKey key id after.disk ((request.stores key).or value) ((request.decides key id).getD allowed) := by
  obtain ⟨logId,payload⟩ := entry
  cases carries with
  | elsewhere leaves =>
    have same := advances_leavesSecrets advances leaves
    exact .congr (by rw [same]) (by rw [same]) holding
  | store prepared =>
    obtain ⟨writes,kind,ok,contents⟩ := advances.applied rfl
    exact holding.storeSecret prepared ok (contents .secrets rfl)
  | grant parsed =>
    obtain ⟨writes,kind,ok,contents⟩ := advances.applied rfl
    exact holding.updateSecretAcl parsed (fun acl => acl.isAuthorized_grant _ _ _) ok (contents .secrets rfl)
  | revoke parsed =>
    obtain ⟨writes,kind,ok,contents⟩ := advances.applied rfl
    exact holding.updateSecretAcl parsed (fun acl => acl.isAuthorized_revoke _ _ _) ok (contents .secrets rfl)

def CarriedBy (masterKey : FileMasterKey) (trace : List (Transition Node Entry)) (requests : List SecretRequest) : Prop :=
  List.Forall₂ (fun transition request => Carries masterKey transition.label.payload request) trace requests

theorem Holding.run {first last : Node} (holding : Holding masterKey key id first.disk value allowed)
    (run : Run Advances first trace last) (carried : CarriedBy masterKey trace requests) :
    Holding masterKey key id last.disk ((latest (·.stores key) requests).or value)
      ((latest (·.decides key id) requests).getD allowed) := by
  induction run generalizing requests value allowed with
  | nil =>
    cases carried
    exact holding
  | cons taken _ ih =>
    cases carried with
    | @cons _ _ _ requests carries later =>
      have final := ih (holding.advances taken carries) later
      rw [latest_cons,latest_cons,Option.or_assoc,Option.getD_or]
      exact final

theorem fetchSecret_run {first last : Node} (empty : first.disk .secrets = ∅) (run : Run Advances first trace last)
    (carried : CarriedBy masterKey trace requests) :
    fetchSecret (openEnvelope masterKey) last.disk key id =
      fetchOutcome key id (latest (·.stores key) requests) ((latest (·.decides key id) requests).getD false) := by
  have start : Holding masterKey key id first.disk none false := .empty empty
  have holding := start.run run carried
  rw [holding.fetchSecret,Option.or_none]

theorem carriedBy_of_payloads (labels : trace.map (·.label) = entries)
    (each : List.Forall₂ (Carries masterKey) (entries.map (·.payload)) requests) : CarriedBy masterKey trace requests := by
  rw [← labels,List.map_map] at each
  exact List.forall₂_map_left_iff.mp each

theorem fetchSecret_apply {start : Node} (empty : start.disk .secrets = ∅)
    (ok : (apply start entries).2.isOk = true)
    (each : List.Forall₂ (Carries masterKey) (entries.map (·.payload)) requests) :
    fetchSecret (openEnvelope masterKey) (apply start entries).1.disk key id =
      fetchOutcome key id (latest (·.stores key) requests) ((latest (·.decides key id) requests).getD false) := by
  obtain ⟨trace,run,labels⟩ := apply_run ok
  exact fetchSecret_run empty run (carriedBy_of_payloads labels each)

theorem fetchOutcome_ok :
    fetchOutcome key id value allowed = .ok plaintext ↔ value = some plaintext ∧ allowed = true := by
  cases value <;> cases allowed <;> simp [fetchOutcome]

/-- The value stored last, exactly if the last request about the identity lets it in. -/
theorem secret_follows_history {first last : Node} {trace : List (Transition Node Entry)} {requests : List SecretRequest}
    (empty : first.disk .secrets = ∅) (run : Run Advances first trace last)
    (carried : CarriedBy masterKey trace requests) (key : String) (id : SpiffeId) :
    (∀ plaintext, fetchSecret (openEnvelope masterKey) last.disk key id = .ok plaintext ↔
      latest (·.stores key) requests = some plaintext ∧ latest (·.decides key id) requests = some true) ∧
    ∀ {first' last' : Node} {trace' : List (Transition Node Entry)} {requests' : List SecretRequest},
      first'.disk .secrets = ∅ → Run Advances first' trace' last' → CarriedBy masterKey trace' requests' →
      requests'.filter (·.about key) = requests.filter (·.about key) →
      fetchSecret (openEnvelope masterKey) last'.disk key id = fetchSecret (openEnvelope masterKey) last.disk key id := by
  have stored : ∀ requests : List SecretRequest,
      latest (·.stores key) (requests.filter (·.about key)) = latest (·.stores key) requests :=
    latest_filter _ fun _ => SecretRequest.stores_none
  have decided : ∀ requests : List SecretRequest,
      latest (·.decides key id) (requests.filter (·.about key)) = latest (·.decides key id) requests :=
    latest_filter _ fun _ other => SecretRequest.decides_none other id
  constructor
  · intro plaintext
    rw [fetchSecret_run empty run carried,fetchOutcome_ok]
    refine and_congr_right fun _ => ?_
    cases latest (·.decides key id) requests <;> simp
  · intro first' last' trace' requests' empty' run' carried' same
    rw [fetchSecret_run empty run carried,fetchSecret_run empty' run' carried',← stored requests,← stored requests',
      ← decided requests,← decided requests',same]

end

end

section
open Reference

instance Reference.aead : Aead where
  encrypt _ nonce plaintext := .ok (nonce ++ plaintext)
  decrypt _ nonce ciphertext :=
    if nonce.isPrefixOf ciphertext then .ok (ciphertext.drop nonce.length) else .error "aead::Error"
  decrypt_encrypt key nonce plaintext ciphertext _ _ encrypted := by
    cases encrypted
    simp

def Reference.envelopeSecret : Codec EnvelopeSecret :=
  (Codec.bytes.pair (Codec.bytes.pair (Codec.bytes.pair Codec.bytes))).iso
    (fun e => (e.wrappedDek.nonce,e.wrappedDek.ciphertext,e.nonce,e.ciphertext))
    (fun (wrapNonce,wrapped,nonce,ciphertext) => ⟨⟨wrapNonce,wrapped⟩,nonce,ciphertext⟩) (fun _ => rfl)

instance Reference.envelopes : Postcard EnvelopeSecret := postcard envelopeSecret

def Reference.masterKey : FileMasterKey := ⟨List.replicate 32 7,rfl⟩

def Reference.drawn : Drawn := ⟨⟨List.replicate 32 1,rfl⟩,⟨List.replicate 12 2,rfl⟩,⟨List.replicate 12 3,rfl⟩⟩

def paymentsApi : Identity := ⟨"spiffe://data.example.internal/ns/acme/sa/payments",by decide⟩

def reportsJob : Identity := ⟨"spiffe://data.example.internal/ns/acme/sa/reports",by decide⟩

def storedFor (key : String) (plaintext : Bytes) (authorized : List Identity) : FleetosCommand :=
  match prepareSecret (sealEnvelope masterKey drawn) key plaintext authorized with
  | .ok (envelope,acl) => .storeSecret ⟨key,envelope,acl,[]⟩ paymentsApi.1
  | .error _ => .deleteTenant ""

def reassigned : List Entry :=
  [commandAt 1 (storedFor "db-password" [1] [paymentsApi,reportsJob]),
    commandAt 2 (storedFor "api-token" [2] [paymentsApi]),
    commandAt 3 (.revokeSecretAccess "acme" "db-password" paymentsApi.1)]

theorem carries_storedFor (index : UInt64) (key : String) (plaintext : Bytes) (authorized : List Identity) :
    Carries masterKey (commandAt index (storedFor key plaintext authorized)).payload (.store key plaintext authorized) :=
  .store rfl

theorem reports_job_let_in : ∃ trace requests, CarriedBy masterKey trace requests ∧
    Run Advances (boot Disk.empty) trace (apply (boot Disk.empty) reassigned).1 ∧
    fetchSecret (openEnvelope masterKey) (apply (boot Disk.empty) reassigned).1.disk "db-password" reportsJob = .ok [1] ∧
    ∀ plaintext, fetchSecret (openEnvelope masterKey) (apply (boot Disk.empty) reassigned).1.disk "db-password"
      paymentsApi ≠ .ok plaintext := by
  obtain ⟨trace,run,labels⟩ := apply_run (show (apply (boot Disk.empty) reassigned).2.isOk = true by decide +kernel)
  let requests : List SecretRequest :=
    [.store "db-password" [1] [paymentsApi,reportsJob],.store "api-token" [2] [paymentsApi],
      .revoke "db-password" paymentsApi]
  have carried : CarriedBy masterKey trace requests := carriedBy_of_payloads labels
    (.cons (carries_storedFor _ _ _ _) (.cons (carries_storedFor _ _ _ _) (.cons (.revoke rfl) .nil)))
  refine ⟨trace,requests,carried,run,?_,?_⟩
  · exact ((secret_follows_history rfl run carried "db-password" reportsJob).1 [1]).mpr (by decide)
  · intro plaintext handed
    have decided := (((secret_follows_history rfl run carried "db-password" paymentsApi).1 plaintext).mp handed).2
    revert decided
    decide

end

theorem mapM_ok_forall₂ {ε α β : Type} {action : α → Except ε β} {items : List α} {results}
    (ok : items.mapM action = .ok results) : List.Forall₂ (fun item result => action item = .ok result) items results := by
  induction items generalizing results with
  | nil =>
    cases ok
    exact .nil
  | cons item items ih =>
    rw [List.mapM_cons] at ok
    obtain ⟨result,first,ok⟩ := bind_ok ok
    obtain ⟨rest,others,ok⟩ := bind_ok ok
    cases ok
    exact .cons first (ih others)

section
variable [FleetosCore] [Formats] [Aead] [Postcard EnvelopeSecret] {masterKey : FileMasterKey} {audited : AuditedCommand}
  {disk before after : Disk} {key : String} {id : SpiffeId} {plaintext : Bytes} {writes : List Write}
  {kind : ChangeKind}

inductive Requested (masterKey : FileMasterKey) : AuditedCommand → SecretRequest → Prop where
  | store {server : AdminServer} {peer requestId drawn req authorized audited} :
      server.storeSecret peer requestId (sealEnvelope masterKey drawn) req = .ok audited →
      List.Forall₂ (fun text id => parse text = .ok id) req.authorizedSpiffeIds authorized →
      Requested masterKey audited (.store req.key req.value authorized)
  | grant {server : AdminServer} {peer requestId req id audited} :
      server.grantSecretAccess peer requestId req = .ok audited →
      parse req.spiffeId = .ok id → Requested masterKey audited (.grant req.key id)
  | revoke {server : AdminServer} {peer requestId req id audited} :
      server.revokeSecretAccess peer requestId req = .ok audited →
      parse req.spiffeId = .ok id → Requested masterKey audited (.revoke req.key id)

def SecretRequest.notifies : SecretRequest → Option SpiffeId
  | .store _ _ authorized => authorized.head?
  | .grant _ id | .revoke _ id => some id
  | .elsewhere => none

/-- For all but the first identity of the list nothing changes. -/
def SecretRequest.TellsAll (masterKey : FileMasterKey) (disk : Disk) : SecretRequest → Prop
  | .store key plaintext authorized => ∀ id, authorized.head? ≠ some id →
      ∃ acl, loadAcl disk key = .ok acl ∧ acl.isAuthorized key id = authorized.contains id ∧
        (authorized.contains id = true →
          (disk .secrets)[asBytes ("secret:" ++ key)]?.map (openEnvelope masterKey) = some (.ok plaintext))
  | _ => True

theorem parsed_unique (first : List.Forall₂ (fun text id => parse text = .ok id) texts left)
    (second : List.Forall₂ (fun text id => parse text = .ok id) texts right) : left = right := by
  induction first generalizing right with
  | nil =>
    cases second
    rfl
  | cons parsed _ ih =>
    obtain _ | ⟨again,others⟩ := second
    rw [ih others,Except.ok.inj (parsed.symm.trans again)]

theorem storeSecret_prepares {server : AdminServer} {peer requestId} {encryptAtRest : Bytes → Except String Bytes}
    {req} (ok : server.storeSecret peer requestId encryptAtRest req = .ok audited) :
    ∃ authorized envelope acl head, authorized.head? = some head ∧
      List.Forall₂ (fun text id => parse text = .ok id) req.authorizedSpiffeIds authorized ∧
      prepareSecret encryptAtRest req.key req.value authorized = .ok (envelope,acl) ∧
      audited.cmd = .storeSecret ⟨req.key,envelope,acl,[]⟩ (display head) := by
  obtain ⟨_,_,ok⟩ := bind_ok ok
  obtain ⟨_,_,ok⟩ := bind_ok ok
  obtain ⟨_,_,ok⟩ := bind_ok ok
  split at ok
  · cases ok
  split at ok
  · cases ok
  split at ok
  · cases ok
  case isFalse listed =>
    obtain ⟨authorized,parsed,ok⟩ := bind_ok ok
    obtain ⟨⟨envelope,acl⟩,prepared,ok⟩ := bind_ok ok
    cases ok
    have each := (mapM_ok_forall₂ parsed).imp fun _ _ => parseArgument_ok
    cases authorized with
    | nil =>
      have none := List.forall₂_nil_right_iff.mp each
      simp [none] at listed
    | cons head others => exact ⟨_,envelope,acl,head,rfl,each,mapError_ok.mp prepared,rfl⟩

theorem Requested.carries (requested : Requested masterKey audited request) :
    Carries masterKey (.normal audited) request ∧ ∃ text id, audited.cmd.changeKind = .secretRotation text ∧
      parse text = .ok id ∧ request.notifies = some id := by
  obtain ⟨cmd,audit⟩ := audited
  cases requested with
  | store ok parsed =>
    obtain ⟨authorized,envelope,acl,head,first,again,prepared,rfl⟩ := storeSecret_prepares ok
    obtain rfl := parsed_unique parsed again
    exact ⟨.store prepared,_,head,rfl,parse_display head,first⟩
  | grant ok parsed =>
    obtain ⟨_,_,rfl⟩ := changeSecretAccess_proposes ok
    exact ⟨.grant parsed,_,_,rfl,parsed,rfl⟩
  | revoke ok parsed =>
    obtain ⟨_,_,rfl⟩ := changeSecretAccess_proposes ok
    exact ⟨.revoke parsed,_,_,rfl,parsed,rfl⟩

theorem openEnvelope_not_denied (sealed : Bytes) (key spiffe : String) :
    openEnvelope masterKey sealed ≠ .error (.accessDenied key spiffe) := by
  unfold openEnvelope
  cases fromBytes (α := EnvelopeSecret) sealed with
  | error e => simp [Bind.bind,Except.bind,Except.mapError]
  | ok envelope =>
    simp only [Bind.bind,Except.bind,Except.mapError,decryptAtRest,FileMasterKey.unwrapDek,Dek.ofBytes]
    grind

theorem fetchSecret_eq_ok : fetchSecret (openEnvelope masterKey) disk key id = .ok plaintext ↔
      ∃ acl, loadAcl disk key = .ok acl ∧ acl.isAuthorized key id = true ∧
        (disk .secrets)[asBytes ("secret:" ++ key)]?.map (openEnvelope masterKey) = some (.ok plaintext) := by
  unfold fetchSecret
  cases loadAcl disk key with
  | error e => simp [Bind.bind,Except.bind]
  | ok acl =>
    cases listed : acl.isAuthorized key id <;>
      cases (disk .secrets)[asBytes ("secret:" ++ key)]? <;>
      simp [Bind.bind,Except.bind,SecretAcl.authorize,listed]

theorem fetchSecret_denied :
    fetchSecret (openEnvelope masterKey) disk key id = .error (.accessDenied key (display id)) ↔
      ∃ acl, loadAcl disk key = .ok acl ∧ acl.isAuthorized key id = false := by
  unfold fetchSecret
  cases loaded : loadAcl disk key with
  | error e =>
    have undecoded : ∃ text, e = .serialization text := by
      unfold loadAcl at loaded
      split at loaded
      · cases decoded : fromBytes (α := SecretAcl) _ with
        | error text =>
          rw [decoded] at loaded
          cases loaded
          exact ⟨text,rfl⟩
        | ok acl =>
          rw [decoded] at loaded
          cases loaded
      · cases loaded
    obtain ⟨text,rfl⟩ := undecoded
    simp [Bind.bind,Except.bind]
  | ok acl =>
    cases listed : acl.isAuthorized key id <;>
      cases (disk .secrets)[asBytes ("secret:" ++ key)]? <;>
      simp [Bind.bind,Except.bind,SecretAcl.authorize,listed,openEnvelope_not_denied]

theorem updateSecretAcl_fetch_other {verdict : Bool} {change : SecretAcl → SpiffeId → SecretAcl}
    (parsed : parse text = .ok spiffe)
    (judges : ∀ acl : SecretAcl, (change acl spiffe).isAuthorized key id =
      if spiffe = id then verdict else acl.isAuthorized key id)
    (ok : updateSecretAcl before key text change = .ok (writes,kind))
    (contents : after .secrets = commit before writes .secrets) (other : spiffe ≠ id) :
    fetchSecret (openEnvelope masterKey) after key id = fetchSecret (openEnvelope masterKey) before key id := by
  obtain ⟨⟨found,read,written⟩,_,secret⟩ := updateSecretAcl_effect parsed ok contents
  have listed := judges (found.getD .new)
  rw [if_neg other] at listed
  unfold fetchSecret
  rw [loadAcl_of_read read,loadAcl_of_read written,secret key]
  simp only [Option.getD_some,SecretAcl.authorize,Bind.bind,Except.bind,listed]

theorem stored_fetch_iff
    (prepared : prepareSecret (sealEnvelope masterKey drawn) key plaintext authorized = .ok (envelope,acl))
    (ok : applyCommand before (.storeSecret ⟨key,envelope,acl,lastApplied⟩ target) = .ok (writes,kind))
    (contents : after .secrets = commit before writes .secrets) (id : SpiffeId) :
    fetchSecret (openEnvelope masterKey) after key id = fetchSecret (openEnvelope masterKey) before key id ↔
      ∃ acl, loadAcl before key = .ok acl ∧ acl.isAuthorized key id = authorized.contains id ∧
        (authorized.contains id = true →
          (before .secrets)[asBytes ("secret:" ++ key)]?.map (openEnvelope masterKey) = some (.ok plaintext)) := by
  have holding : Holding masterKey key id after (some plaintext) (authorized.contains id) := .stored prepared ok contents
  rw [holding.fetchSecret,eq_comm]
  cases authorized.contains id with
  | true =>
    have outcome : fetchOutcome key id (some plaintext) true = .ok plaintext := rfl
    rw [outcome,fetchSecret_eq_ok]
    simp
  | false =>
    have outcome : fetchOutcome key id (some plaintext) false = .error (.accessDenied key (display id)) := rfl
    rw [outcome,fetchSecret_denied]
    simp

section
variable [ManifestMessages] [PodMessages] [Naming] [StreamFormats] {dataTrustDomain : String}

def Notified (publications : List Publication) (version : UInt64) (id : SpiffeId) : Prop :=
  ∃ text, .watch (.secretRotationNotification text version) ∈ publications ∧ parse text = .ok id

theorem Requested.notified {audited request logId before after response publications}
    (requested : Requested masterKey audited request)
    (ok : applyAndPublish dataTrustDomain before ⟨logId,.normal audited⟩ = .ok (after,response,publications))
    (id : SpiffeId) : Notified publications response.version id ↔ request.notifies = some id := by
  obtain ⟨applied,writes,kind,payload,rfl⟩ := applyAndPublish_ok ok
  obtain ⟨_,_,_,rfl,_⟩ := applyEntry_effect applied
  obtain ⟨_,text,named,reported,parsed,notifies⟩ := requested.carries
  rw [applyCommand_kind payload,reported,notifies]
  simp [Notified,publishEvent,parsed]

/-- Whoever fetches another result afterwards is told so, exactly if the request tells all. -/
theorem changed_readers_notified {before after : Node} {request : SecretRequest} {audited : AuditedCommand} {logId : LogId}
    {response : FleetosResponse} {publications : List Publication} {key : String}
    (requested : Requested masterKey audited request) (named : request.about key = true)
    (ok : applyAndPublish dataTrustDomain before ⟨logId,.normal audited⟩ = .ok (after,response,publications)) :
    (∀ id, fetchSecret (openEnvelope masterKey) after.disk key id ≠
        fetchSecret (openEnvelope masterKey) before.disk key id → Notified publications response.version id) ↔
      request.TellsAll masterKey before.disk := by
  have advances : Advances before ⟨logId,.normal audited⟩ after := ⟨response,(applyAndPublish_ok ok).1⟩
  simp only [requested.notified ok,ne_eq]
  obtain ⟨writes,kind,applied,contents⟩ := advances.applied rfl
  replace contents := contents .secrets rfl
  cases requested.carries.1 with
  | elsewhere => cases named
  | store prepared =>
    obtain rfl := by simpa [SecretRequest.about] using named
    refine forall_congr' fun id => ?_
    rw [not_imp_comm]
    exact imp_congr Iff.rfl (stored_fetch_iff prepared applied contents id)
  | grant parsed =>
    obtain rfl := by simpa [SecretRequest.about] using named
    refine iff_of_true (fun id changed => ?_) trivial
    by_contra other
    refine changed (updateSecretAcl_fetch_other parsed (fun acl => acl.isAuthorized_grant _ _ _) applied contents ?_)
    exact fun same => other (congrArg some same)
  | revoke parsed =>
    obtain rfl := by simpa [SecretRequest.about] using named
    refine iff_of_true (fun id changed => ?_) trivial
    by_contra other
    refine changed (updateSecretAcl_fetch_other parsed (fun acl => acl.isAuthorized_revoke _ _ _) applied contents ?_)
    exact fun same => other (congrArg some same)

end

end

open Reference

def storeFor (authorized : List Identity) : StoreSecretRequest := ⟨"acme","db-password",[1],authorized.map (·.1)⟩

def answeredStore (authorized : List Identity) : AuditedCommand :=
  match (adminServer Disk.empty).storeSecret fleetctlProxy "req-1" (sealEnvelope masterKey drawn) (storeFor authorized) with
  | .ok audited => audited
  | .error _ => .system (.deleteTenant "")

theorem requested_payments : Requested masterKey (answeredStore [paymentsApi]) (.store "db-password" [1] [paymentsApi]) := by
  have answered : (adminServer Disk.empty).storeSecret fleetctlProxy "req-1" (sealEnvelope masterKey drawn)
      (storeFor [paymentsApi]) = .ok (answeredStore [paymentsApi]) := rfl
  exact .store answered (.cons rfl .nil)

theorem requested_both : Requested masterKey (answeredStore [paymentsApi,reportsJob])
    (.store "db-password" [1] [paymentsApi,reportsJob]) := by
  have answered : (adminServer Disk.empty).storeSecret fleetctlProxy "req-1" (sealEnvelope masterKey drawn)
      (storeFor [paymentsApi,reportsJob]) = .ok (answeredStore [paymentsApi,reportsJob]) := rfl
  exact .store answered (.cons rfl (.cons rfl .nil))

theorem single_reader_told : ∃ after response publications,
    applyAndPublish "data.example.internal" (boot Disk.empty) ⟨logIdAt 1,.normal (answeredStore [paymentsApi])⟩ =
      .ok (after,response,publications) ∧
    ∀ id, fetchSecret (openEnvelope masterKey) after.disk "db-password" id ≠
      fetchSecret (openEnvelope masterKey) (boot Disk.empty).disk "db-password" id →
      Notified publications response.version id := by
  cases outcome : applyAndPublish "data.example.internal" (boot Disk.empty)
      ⟨logIdAt 1,.normal (answeredStore [paymentsApi])⟩ with
  | error e =>
    have accepted : (applyAndPublish "data.example.internal" (boot Disk.empty)
      ⟨logIdAt 1,.normal (answeredStore [paymentsApi])⟩).isOk = true := rfl
    rw [outcome] at accepted
    cases accepted
  | ok result =>
    refine ⟨result.1,result.2.1,result.2.2,rfl,?_⟩
    refine (changed_readers_notified requested_payments rfl outcome).mpr ?_
    intro id other
    have absent : ¬id = paymentsApi := fun same => other (by rw [same]; rfl)
    exact ⟨.new,rfl,by simp [absent],by simp [absent]⟩

/-- A secret for two services: the second one can fetch it from now on, and no notification names it. -/
theorem second_reader_not_told : ∃ after response publications,
    (adminServer Disk.empty).storeSecret fleetctlProxy "req-1" (sealEnvelope masterKey drawn)
      (storeFor [paymentsApi,reportsJob]) = .ok (answeredStore [paymentsApi,reportsJob]) ∧
    applyAndPublish "data.example.internal" (boot Disk.empty) ⟨logIdAt 1,.normal (answeredStore [paymentsApi,reportsJob])⟩ =
      .ok (after,response,publications) ∧
    fetchSecret (openEnvelope masterKey) Disk.empty "db-password" reportsJob =
      .error (.accessDenied "db-password" reportsJob.1) ∧
    fetchSecret (openEnvelope masterKey) after.disk "db-password" reportsJob = .ok [1] ∧
    ¬Notified publications response.version reportsJob := by
  cases outcome : applyAndPublish "data.example.internal" (boot Disk.empty)
      ⟨logIdAt 1,.normal (answeredStore [paymentsApi,reportsJob])⟩ with
  | error e =>
    have accepted : (applyAndPublish "data.example.internal" (boot Disk.empty)
      ⟨logIdAt 1,.normal (answeredStore [paymentsApi,reportsJob])⟩).isOk = true := rfl
    rw [outcome] at accepted
    cases accepted
  | ok result =>
    have run : Run Advances (boot Disk.empty) _ result.1 := .cons ⟨_,(applyAndPublish_ok outcome).1⟩ (.nil _)
    refine ⟨result.1,result.2.1,result.2.2,rfl,rfl,rfl,?_,?_⟩
    · exact (fetchSecret_run rfl run (.cons requested_both.carries.1 .nil)).trans rfl
    · rw [requested_both.notified outcome]
      decide

end FleetosControl
