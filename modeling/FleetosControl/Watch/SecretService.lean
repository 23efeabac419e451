import FleetosControl.Secrets.History

/-! `FetchSecret`: a secret is sealed for the caller, under the SVID version on record and a
sequence number counted in the memory of the process. -/
namespace FleetosControl
open Wire Trace

structure FetchSecretRequest where
  targetSpiffeId : String
  sealedForSvidVersion : UInt64

structure SealedSecret where
  targetSpiffeId : String
  sealedForSvidVersion : UInt64
  sequence : UInt64
  ephemeralPubkey : Bytes
  ciphertext : Bytes
  deriving DecidableEq

structure SealedPayload where
  sealedForSvidVersion : UInt64
  sequence : UInt64
  ephemeralPubkey : Bytes
  ciphertext : Bytes

/-- `fleetos_core::crypto::seal`, with the ephemeral key it draws. -/
class Sealing where
  sealSecret : (ephemeral recipientPubkey plaintext : Bytes) → (svidVersion sequence : UInt64) → Except String SealedPayload
  sealSecret_numbers : ∀ {ephemeral recipientPubkey plaintext svidVersion sequence sealed},
    sealSecret ephemeral recipientPubkey plaintext svidVersion sequence = .ok sealed →
      sealed.sealedForSvidVersion = svidVersion ∧ sealed.sequence = sequence

/-- The process that serves the calls. The tracker lives in its memory; an absent entry counts as 0. -/
structure SecretServiceImpl where
  masterKey : FileMasterKey
  storage : Disk
  sequenceTracker : String × UInt64 → UInt64

namespace SecretServiceImpl

def new (masterKey : FileMasterKey) (storage : Disk) : SecretServiceImpl := ⟨masterKey,storage,fun _ => 0⟩

def nextSequence (service : SecretServiceImpl) (spiffeId : String) (svidVersion : UInt64) : UInt64 × SecretServiceImpl :=
  let seq := service.sequenceTracker (spiffeId,svidVersion) + 1
  (seq,{ service with sequenceTracker := Function.update service.sequenceTracker (spiffeId,svidVersion) seq })

theorem nextSequence_tracker (service : SecretServiceImpl) (spiffeId : String)
    (version : UInt64) (entry : String × UInt64) (room : (service.sequenceTracker entry).toNat + 1 < 2 ^ 64) :
    (service.sequenceTracker entry).toNat ≤ ((service.nextSequence spiffeId version).2.sequenceTracker entry).toNat := by
  by_cases own : entry = (spiffeId,version)
  · subst own
    simp only [nextSequence,Function.update_self,UInt64.toNat_add,UInt64.reduceToNat]
    omega
  · simp only [nextSequence,Function.update_of_ne own,Nat.le_refl]

section
variable [FleetosCore] [Formats]

def lookupSvidVersion (service : SecretServiceImpl) (spiffeId : SpiffeId) : Except Status UInt64 :=
  match (service.storage .svids)[asBytes (display spiffeId)]? with
  | none => .error ⟨.notFound,"no SVID record for " ++ display spiffeId⟩
  | some bytes =>
    match fromBytes (α := SvidRecord) bytes with
    | .error e => .error ⟨.internal,"failed to parse SVID record: " ++ e⟩
    | .ok record => .ok record.svidVersion

def lookupX25519Pubkey (service : SecretServiceImpl) (spiffeId : SpiffeId) : Except String Bytes :=
  match (service.storage .svids)[asBytes (display spiffeId)]? with
  | none => .error ("X25519 pubkey not registered for " ++ display spiffeId)
  | some bytes =>
    match fromBytes (α := SvidRecord) bytes with
    | .error e => .error ("failed to parse SVID record: " ++ e)
    | .ok record =>
      if record.agentX25519Pubkey.length ≠ 32 then
        .error ("invalid X25519 pubkey length: expected 32, got " ++ toString record.agentX25519Pubkey.length)
      else .ok record.agentX25519Pubkey

def fetchStatus (error : SecretError) : Status :=
  match error with
  | .accessDenied _ _ => ⟨.permissionDenied,error.display⟩
  | .notFound _ => ⟨.notFound,error.display⟩
  | _ => ⟨.internal,error.display⟩

variable [Aead] [Postcard EnvelopeSecret]

/-- `fetch_secret` up to the sequence number: the caller's key and the plaintext. -/
def prepareDelivery (service : SecretServiceImpl) (peer : Peer) (req : FetchSecretRequest) :
    Except Status (Bytes × Bytes) :=
  match peer with
  | none => .error ⟨.unauthenticated,"no peer identity found"⟩
  | some requestingSpiffeId => do
    let _ ← parseArgument req.targetSpiffeId "target SpiffeId"
    let requesterVersion ← service.lookupSvidVersion requestingSpiffeId
    if requesterVersion ≠ req.sealedForSvidVersion then
      permissionDenied ("SVID version mismatch: secret sealed for version " ++ toString req.sealedForSvidVersion ++
        ", requester has version " ++ toString requesterVersion)
    else
      -- the name the secret is asked for under is also its key in the store
      let plaintext ← (FleetosControl.fetchSecret (openEnvelope service.masterKey) service.storage req.targetSpiffeId
        requestingSpiffeId).mapError fetchStatus
      let recipientPubkey ← (service.lookupX25519Pubkey requestingSpiffeId).mapError fun e =>
        ⟨.internal,"failed to get recipient pubkey: " ++ e⟩
      pure (recipientPubkey,plaintext)

variable [Sealing]

/-- A sequence number is used up also when the sealing fails. -/
def fetchSecret (service : SecretServiceImpl) (ephemeral : Bytes) (peer : Peer) (req : FetchSecretRequest) :
    Except Status SealedSecret × SecretServiceImpl :=
  match service.prepareDelivery peer req with
  | .error status => (.error status,service)
  | .ok (recipientPubkey,plaintext) =>
    let (sequence,counted) := service.nextSequence req.targetSpiffeId req.sealedForSvidVersion
    match Sealing.sealSecret ephemeral recipientPubkey plaintext req.sealedForSvidVersion sequence with
    | .error e => (.error ⟨.internal,"sealing failed: " ++ e⟩,counted)
    | .ok sealed =>
      (.ok ⟨req.targetSpiffeId,sealed.sealedForSvidVersion,sealed.sequence,sealed.ephemeralPubkey,sealed.ciphertext⟩,
        counted)

theorem fetchSecret_cases {served} {service : SecretServiceImpl}
    (call : service.fetchSecret ephemeral peer req = (answer,served)) :
    (served = service ∧ ∃ status, answer = .error status) ∨
    (served = (service.nextSequence req.targetSpiffeId req.sealedForSvidVersion).2 ∧
      ∀ delivery, answer = .ok delivery → delivery.sealedForSvidVersion = req.sealedForSvidVersion ∧
        delivery.sequence = (service.nextSequence req.targetSpiffeId req.sealedForSvidVersion).1) := by
  unfold fetchSecret at call
  split at call
  case h_1 status _ =>
    cases call
    exact .inl ⟨rfl,status,rfl⟩
  case h_2 =>
    simp only at call
    split at call
    case h_1 =>
      cases call
      exact .inr ⟨rfl,fun _ impossible => by cases impossible⟩
    case h_2 sealed done =>
      cases call
      refine .inr ⟨rfl,fun delivery made => ?_⟩
      cases made
      exact Sealing.sealSecret_numbers done

end

end SecretServiceImpl

section
variable [FleetosCore] [Formats] [Aead] [Postcard EnvelopeSecret] [Sealing] {recipient : SpiffeId}
  {svidVersion node : UInt64} {target : String}

abbrev SecretServers := UInt64 → SecretServiceImpl

inductive SecretEvent where
  | fetched (node : UInt64) (peer : Peer) (req : FetchSecretRequest) (answer : Except Status SealedSecret)
  | restarted (node : UInt64)
  | replicated (node : UInt64)

/-- A node serves a call, starts a new process over its database, or has its database changed by replication. -/
inductive SecretStep : SecretServers → SecretEvent → SecretServers → Prop where
  | fetched {servers} {node : UInt64} {ephemeral peer req answer served} :
      (servers node).fetchSecret ephemeral peer req = (answer,served) →
      SecretStep servers (.fetched node peer req answer) (Function.update servers node served)
  | restarted {node : UInt64} :
      SecretStep servers (.restarted node) (Function.update servers node (.new masterKey (servers node).storage))
  | replicated {servers} {node : UInt64} {storage} :
      SecretStep servers (.replicated node) (Function.update servers node { servers node with storage })

def SecretEvent.deliveredTo (recipient : SpiffeId) (svidVersion : UInt64) : SecretEvent → Option UInt64
  | .fetched _ peer _ (.ok delivery) =>
      if peer = some recipient ∧ delivery.sealedForSvidVersion = svidVersion then some delivery.sequence else none
  | _ => none

def sequences (recipient : SpiffeId) (svidVersion : UInt64) (trace : List (Transition SecretServers SecretEvent)) :
    List UInt64 :=
  trace.filterMap fun transition => transition.label.deliveredTo recipient svidVersion

/-- The node does not restart, and its counter is not at the end of its range. -/
def OneSource (recipient : SpiffeId) (svidVersion node : UInt64) (target : String)
    (transition : Transition SecretServers SecretEvent) : Prop :=
  match transition.label with
  | .fetched other peer req _ =>
      (peer = some recipient → req.sealedForSvidVersion = svidVersion → other = node ∧ req.targetSpiffeId = target) ∧
        ((transition.before node).sequenceTracker (target,svidVersion)).toNat + 1 < 2 ^ 64
  | .restarted other => other ≠ node
  | .replicated _ => True

theorem deliveredTo_fetched {other : UInt64} {value : UInt64}
    (delivered : value ∈ (SecretEvent.fetched other peer req answer).deliveredTo recipient svidVersion) :
    ∃ delivery, answer = .ok delivery ∧ peer = some recipient ∧ delivery.sealedForSvidVersion = svidVersion ∧
      delivery.sequence = value := by
  cases answer with
  | error status => cases delivered
  | ok delivery =>
    simp only [SecretEvent.deliveredTo] at delivered
    split at delivered
    case isFalse => cases delivered
    case isTrue named =>
      cases delivered
      exact ⟨delivery,rfl,named.1,named.2,rfl⟩

theorem SecretStep.counts (step : SecretStep before event after)
    (source : OneSource recipient svidVersion node target ⟨before,event,after⟩) :
    ((before node).sequenceTracker (target,svidVersion)).toNat ≤
        ((after node).sequenceTracker (target,svidVersion)).toNat ∧
      ∀ value ∈ event.deliveredTo recipient svidVersion,
        ((before node).sequenceTracker (target,svidVersion)).toNat < value.toNat ∧
          value.toNat ≤ ((after node).sequenceTracker (target,svidVersion)).toNat := by
  cases step with
  | restarted =>
    refine ⟨?_,by simp [SecretEvent.deliveredTo]⟩
    rw [Function.update_of_ne (Ne.symm source)]
  | @replicated other =>
    refine ⟨?_,by simp [SecretEvent.deliveredTo]⟩
    by_cases same : node = other
    · subst same
      simp
    · rw [Function.update_of_ne same]
  | @fetched other ephemeral peer req answer served call =>
    obtain ⟨only,room⟩ := source
    rcases SecretServiceImpl.fetchSecret_cases call with ⟨rfl,status,rfl⟩ | ⟨rfl,carried⟩
    · rw [Function.update_eq_self]
      exact ⟨Nat.le_refl _,by simp [SecretEvent.deliveredTo]⟩
    · refine ⟨?_,fun value delivered => ?_⟩
      · by_cases same : node = other
        · subst same
          rw [Function.update_self]
          exact (before node).nextSequence_tracker _ _ _ room
        · rw [Function.update_of_ne same]
      · obtain ⟨delivery,rfl,asked,version,rfl⟩ := deliveredTo_fetched delivered
        obtain ⟨same,numbered⟩ := carried delivery rfl
        rw [version] at same
        obtain ⟨rfl,rfl⟩ := only asked same.symm
        rw [numbered,Function.update_self]
        simp only [SecretServiceImpl.nextSequence,← same,Function.update_self,UInt64.toNat_add,UInt64.reduceToNat]
        simp only at room
        omega

/-- As long as a recipient asks one process for one name, the sequence numbers sealed for a version increase. -/
theorem sequences_increase {first last : SecretServers} {trace : List (Transition SecretServers SecretEvent)}
    (run : Run SecretStep first trace last)
    (source : ∀ transition ∈ trace, OneSource recipient svidVersion node target transition) :
    (sequences recipient svidVersion trace).Pairwise (· < ·) := by
  have increasing := (run.emitted_increasing
    (fun servers => ((servers node).sequenceTracker (target,svidVersion)).toNat)
    (fun transition => (transition.label.deliveredTo recipient svidVersion).map (·.toNat)) ?_).1
  · rw [← List.map_filterMap,List.pairwise_map] at increasing
    exact increasing.imp UInt64.lt_iff_toNat_lt.mpr
  · intro transition member
    obtain ⟨grows,between⟩ := (run.step_of_mem transition member).counts (source transition member)
    refine ⟨grows,fun value emitted => ?_⟩
    obtain ⟨sequence,delivered,rfl⟩ := map_eq_some_iff.mp emitted
    exact between sequence delivered

end

section
open Reference

instance Reference.sealing : Sealing where
  sealSecret ephemeral recipientPubkey plaintext svidVersion sequence :=
    .ok ⟨svidVersion,sequence,ephemeral,recipientPubkey ++ plaintext⟩
  sealSecret_numbers done := by
    cases done
    exact ⟨rfl,rfl⟩

def sharedSecrets : Disk := (apply (boot Disk.empty)
  [commandAt 1 (.upsertSvidVersion ⟨paymentsApi.1,1,1700000060,List.replicate 32 5⟩),
    commandAt 2 (storedFor paymentsApi.1 [1] [paymentsApi]),commandAt 3 (storedFor reportsJob.1 [1] [paymentsApi])]).1.disk

def started : SecretServers := fun _ => .new masterKey sharedSecrets

def delivered (servers : SecretServers) (node : UInt64) (target : String) : SealedSecret :=
  ⟨target,1,((servers node).nextSequence target 1).1,[4],List.replicate 32 5 ++ [1]⟩

def asking (servers : SecretServers) (node : UInt64) (target : String) : Transition SecretServers SecretEvent :=
  ⟨servers,.fetched node (some paymentsApi) ⟨target,1⟩ (.ok (delivered servers node target)),
    Function.update servers node ((servers node).nextSequence target 1).2⟩

def restarting (servers : SecretServers) (node : UInt64) : Transition SecretServers SecretEvent :=
  ⟨servers,.restarted node,Function.update servers node (.new masterKey (servers node).storage)⟩

variable {target : String}

theorem asking_step {node : UInt64}
    (prepared : (servers node).prepareDelivery (some paymentsApi) ⟨target,1⟩ = .ok (List.replicate 32 5,[1])) :
    SecretStep servers (asking servers node target).label (asking servers node target).after := by
  have call : (servers node).fetchSecret [4] (some paymentsApi) ⟨target,1⟩ =
      (.ok (delivered servers node target),((servers node).nextSequence target 1).2) := by
    unfold SecretServiceImpl.fetchSecret
    rw [prepared]
    rfl
  exact .fetched call

theorem shared_fetched (known : target = paymentsApi.1 ∨ target = reportsJob.1) :
    fetchSecret (openEnvelope masterKey) sharedSecrets target paymentsApi = .ok [1] := by
  have versioned : ∀ audited, (commandAt 1 (.upsertSvidVersion ⟨paymentsApi.1,1,1700000060,List.replicate 32 5⟩)).payload =
      .normal audited → audited.cmd.LeavesSecrets := by
    intro audited normal
    cases normal
    simp [AuditedCommand.system,FleetosCommand.LeavesSecrets,touches]
  have fetched : fetchSecret (openEnvelope masterKey) sharedSecrets target paymentsApi = _ := fetchSecret_apply rfl rfl
    (.cons (.elsewhere versioned) (.cons (carries_storedFor _ _ _ _) (.cons (carries_storedFor _ _ _ _) .nil)))
  rcases known with rfl | rfl <;>
    exact fetched.trans (by decide)

theorem shared_prepared (known : target = paymentsApi.1 ∨ target = reportsJob.1) :
    (started 1).prepareDelivery (some paymentsApi) ⟨target,1⟩ = .ok (List.replicate 32 5,[1]) := by
  have parsed : ∃ id, parseArgument target "target SpiffeId" = .ok id := by
    rcases known with rfl | rfl
    · exact ⟨paymentsApi,rfl⟩
    · exact ⟨reportsJob,rfl⟩
  have version : (started 1).lookupSvidVersion paymentsApi = .ok 1 := by decide +kernel
  have pubkey : (started 1).lookupX25519Pubkey paymentsApi = .ok (List.replicate 32 5) := by decide +kernel
  have fetched : fetchSecret (openEnvelope (started 1).masterKey) (started 1).storage target paymentsApi = .ok [1] :=
    shared_fetched known
  obtain ⟨id,parsed⟩ := parsed
  simp [SecretServiceImpl.prepareDelivery,parsed,version,pubkey,fetched,bind,Except.bind,Except.mapError,pure,Except.pure]

def askedTwice : List (Transition SecretServers SecretEvent) :=
  [asking started 1 paymentsApi.1,asking (asking started 1 paymentsApi.1).after 1 paymentsApi.1]

theorem asked_twice_increasing : sequences paymentsApi 1 askedTwice = [1,2] ∧
    (sequences paymentsApi 1 askedTwice).Pairwise (· < ·) := by
  have run : Run SecretStep started askedTwice _ :=
    .cons (asking_step (shared_prepared (.inl rfl))) (.cons (asking_step (shared_prepared (.inl rfl))) (.nil _))
  have source : ∀ transition ∈ askedTwice, OneSource paymentsApi 1 1 paymentsApi.1 transition := by
    intro transition member
    rcases mem_cons.mp member with rfl | member
    · exact ⟨fun _ _ => ⟨rfl,rfl⟩,by decide +kernel⟩
    · rw [mem_singleton.mp member]
      exact ⟨fun _ _ => ⟨rfl,rfl⟩,by decide +kernel⟩
  exact ⟨by decide +kernel,sequences_increase run source⟩

/-- The process restarts between two deliveries, or the two are for different names: both carry number 1. -/
theorem sequence_repeats : ∃ restarted renamed lastRestarted lastRenamed,
    Run SecretStep started restarted lastRestarted ∧ sequences paymentsApi 1 restarted = [1,1] ∧
    Run SecretStep started renamed lastRenamed ∧ sequences paymentsApi 1 renamed = [1,1] := by
  let first := asking started 1 paymentsApi.1
  let restart := restarting first.after 1
  have restarted : Run SecretStep started [first,restart,asking restart.after 1 paymentsApi.1] _ :=
    .cons (asking_step (shared_prepared (.inl rfl))) (.cons .restarted
      (.cons (asking_step (shared_prepared (.inl rfl))) (.nil _)))
  have renamed : Run SecretStep started [first,asking first.after 1 reportsJob.1] _ :=
    .cons (asking_step (shared_prepared (.inl rfl))) (.cons (asking_step (shared_prepared (.inr rfl))) (.nil _))
  exact ⟨_,_,_,_,restarted,by decide +kernel,renamed,by decide +kernel⟩

end

open Latest

section
variable [FleetosCore] [Formats] [Aead] [Postcard EnvelopeSecret]

namespace SecretServiceImpl
variable {service : SecretServiceImpl} {id : SpiffeId} {record : SvidRecord}

section
variable (current : readRecord SvidRecord service.storage .svids (asBytes (display id)) = .ok (some record))
include current

theorem lookupSvidVersion_current : service.lookupSvidVersion id = .ok record.svidVersion := by
  obtain ⟨bytes,stored,decoded⟩ := readRecord_some.mp current
  unfold lookupSvidVersion
  rw [stored]
  simp only [decoded]

theorem lookupX25519Pubkey_current : service.lookupX25519Pubkey id = .ok pubkey ↔
    record.agentX25519Pubkey.length = 32 ∧ record.agentX25519Pubkey = pubkey := by
  obtain ⟨bytes,stored,decoded⟩ := readRecord_some.mp current
  unfold lookupX25519Pubkey
  rw [stored]
  simp only [decoded]
  split
  case isTrue other => simp [other]
  case isFalse whole => simp [not_not.mp whole]

theorem prepareDelivery_current (req : FetchSecretRequest) :
    service.prepareDelivery (some id) req = .ok (pubkey,plaintext) ↔
      (∃ target, parse req.targetSpiffeId = .ok target) ∧ req.sealedForSvidVersion = record.svidVersion ∧
      FleetosControl.fetchSecret (openEnvelope service.masterKey) service.storage req.targetSpiffeId id = .ok plaintext ∧
      record.agentX25519Pubkey.length = 32 ∧ record.agentX25519Pubkey = pubkey := by
  rw [← lookupX25519Pubkey_current current]
  unfold prepareDelivery
  constructor
  · intro ok
    obtain ⟨target,parsed,ok⟩ := bind_ok ok
    obtain ⟨version,read,ok⟩ := bind_ok ok
    split at ok
    · cases ok
    case isFalse same =>
      obtain ⟨value,fetched,ok⟩ := bind_ok ok
      obtain ⟨found,looked,ok⟩ := bind_ok ok
      cases ok
      cases (lookupSvidVersion_current current).symm.trans read
      exact ⟨⟨target,parseArgument_ok parsed⟩,(not_not.mp same).symm,mapError_ok.mp fetched,mapError_ok.mp looked⟩
  · rintro ⟨⟨target,parsed⟩,same,fetched,looked⟩
    have accepted : parseArgument req.targetSpiffeId "target SpiffeId" = .ok target := mapError_ok.mpr parsed
    simp [accepted,lookupSvidVersion_current current,same,fetched,looked,Bind.bind,Except.bind,Except.mapError,Pure.pure,
      Except.pure]

end

variable [Sealing]

theorem fetchSecret_ok : (service.fetchSecret ephemeral peer req).1 = .ok delivery ↔
      ∃ pubkey plaintext sealed, service.prepareDelivery peer req = .ok (pubkey,plaintext) ∧
        Sealing.sealSecret ephemeral pubkey plaintext req.sealedForSvidVersion
          (service.nextSequence req.targetSpiffeId req.sealedForSvidVersion).1 = .ok sealed ∧
        delivery = ⟨req.targetSpiffeId,sealed.sealedForSvidVersion,sealed.sequence,sealed.ephemeralPubkey,
          sealed.ciphertext⟩ := by
  unfold fetchSecret
  cases prepared : service.prepareDelivery peer req with
  | error status => simp
  | ok found =>
    obtain ⟨pubkey,plaintext⟩ := found
    simp only
    split
    case h_1 e failed => simp [failed]
    case h_2 sealed done => simp [done,eq_comm]

end SecretServiceImpl

section
variable [Sealing]

/-- The delivery is the value, sealed for the key and the version of the recipient's SVID record. -/
def SealedSecret.Holds (delivery : SealedSecret) (record : SvidRecord) (value : Bytes) : Prop :=
  ∃ ephemeral sequence sealed,
    Sealing.sealSecret ephemeral record.agentX25519Pubkey value record.svidVersion sequence = .ok sealed ∧
      delivery.sealedForSvidVersion = sealed.sealedForSvidVersion ∧ delivery.sequence = sealed.sequence ∧
      delivery.ephemeralPubkey = sealed.ephemeralPubkey ∧ delivery.ciphertext = sealed.ciphertext

end

section
variable {masterKey : FileMasterKey}

theorem accepted_fetched {server : AdminServer} {peer requestId drawn req audited}
    (accepted : server.storeSecret peer requestId (sealEnvelope masterKey drawn) req = .ok audited)
    {before after last} {entry : Entry} (normal : entry.payload = .normal audited)
    (advances : Advances before entry after) {trace requests} (run : Run Advances after trace last)
    (carried : CarriedBy masterKey trace requests) (kept : ∀ request ∈ requests, request.stores req.key = none)
    {id acl} (loaded : loadAcl last.disk req.key = .ok acl) (listed : acl.isAuthorized req.key id = true) :
    fetchSecret (openEnvelope masterKey) last.disk req.key id = .ok req.value := by
  obtain ⟨authorized,envelope,list,head,_,_,prepared,command⟩ := storeSecret_prepares accepted
  obtain ⟨writes,kind,ok,contents⟩ := advances.applied normal
  rw [command] at ok
  have held : Holding masterKey req.key id after.disk (some req.value) (authorized.contains id) :=
    .stored prepared ok (contents .secrets rfl)
  have final := held.run run carried
  have undisturbed : latest (·.stores req.key) requests = none := by
    simpa [latest,List.findSome?_eq_none_iff] using kept
  rw [undisturbed,Option.none_or] at final
  obtain ⟨found,read,verdict⟩ := final.acl
  cases (loadAcl_of_read read).symm.trans loaded
  rw [listed] at verdict
  rw [final.fetchSecret,← verdict]
  rfl

end

variable [Sealing]

/-- Exactly if the secret's key reads as an identity and the sealing takes the key on record. -/
theorem secret_reaches_reader_iff (service : SecretServiceImpl) {server : AdminServer} {peer : Peer} {requestId : String}
    {drawn : Drawn} {req : StoreSecretRequest} {audited : AuditedCommand}
    (accepted : server.storeSecret peer requestId (sealEnvelope service.masterKey drawn) req = .ok audited)
    {before after last : Node} {entry : Entry} (normal : entry.payload = .normal audited)
    (advances : Advances before entry after) {trace : List (Transition Node Entry)} {requests : List SecretRequest}
    (run : Run Advances after trace last) (carried : CarriedBy service.masterKey trace requests)
    (kept : ∀ request ∈ requests, request.stores req.key = none) (serves : service.storage = last.disk) {id : SpiffeId}
    {acl : SecretAcl} (loaded : loadAcl last.disk req.key = .ok acl) (listed : acl.isAuthorized req.key id = true)
    {record : SvidRecord}
    (current : readRecord SvidRecord last.disk .svids (asBytes (display id)) = .ok (some record)) :
    (∃ ask ephemeral delivery, (service.fetchSecret ephemeral (some id) ask).1 = .ok delivery ∧
      ask.targetSpiffeId = req.key ∧ delivery.Holds record req.value) ↔
    (∃ target, parse req.key = .ok target) ∧ record.agentX25519Pubkey.length = 32 ∧
      ∃ ephemeral sealed, Sealing.sealSecret ephemeral record.agentX25519Pubkey req.value record.svidVersion
        (service.nextSequence req.key record.svidVersion).1 = .ok sealed := by
  have fetched := accepted_fetched accepted normal advances run carried kept loaded listed
  rw [← serves] at fetched current
  constructor
  · rintro ⟨⟨target,version⟩,ephemeral,delivery,answered,rfl,_⟩
    obtain ⟨pubkey,plaintext,sealed,prepared,done,_⟩ := SecretServiceImpl.fetchSecret_ok.mp answered
    obtain ⟨parsed,versioned,found,whole,rfl⟩ := (SecretServiceImpl.prepareDelivery_current current _).mp prepared
    cases fetched.symm.trans found
    rw [versioned] at done
    exact ⟨parsed,whole,ephemeral,sealed,done⟩
  · rintro ⟨parsed,whole,ephemeral,sealed,done⟩
    have prepared := (SecretServiceImpl.prepareDelivery_current current ⟨req.key,record.svidVersion⟩).mpr
      ⟨parsed,rfl,fetched,whole,rfl⟩
    refine ⟨⟨req.key,record.svidVersion⟩,ephemeral,_,
      SecretServiceImpl.fetchSecret_ok.mpr ⟨_,_,sealed,prepared,done,rfl⟩,rfl,?_⟩
    exact ⟨ephemeral,_,sealed,done,rfl,rfl,rfl,rfl⟩

end

open Reference

def paymentsSvid : SvidRecord := ⟨paymentsApi.1,1,1700000060,List.replicate 32 5⟩

def paymentsKnown : Node := (apply (boot Disk.empty) [commandAt 1 (.upsertSvidVersion paymentsSvid)]).1

def storeUnderName : StoreSecretRequest := ⟨"acme",paymentsApi.1,[1],[paymentsApi.1]⟩

def answeredUnderName : AuditedCommand :=
  match (adminServer Disk.empty).storeSecret fleetctlProxy "req-1" (sealEnvelope masterKey drawn) storeUnderName with
  | .ok audited => audited
  | .error _ => .system (.deleteTenant "")

def secretStored (audited : AuditedCommand) : Node := (apply paymentsKnown [⟨logIdAt 2,.normal audited⟩]).1

def servingSecret (audited : AuditedCommand) : SecretServiceImpl := .new masterKey (secretStored audited).disk

theorem secretStored_outcome (requested : Requested masterKey audited request)
    (committed : Advances paymentsKnown ⟨logIdAt 2,.normal audited⟩ (secretStored audited)) (key : String)
    (id : Identity) :
    fetchSecret (openEnvelope masterKey) (secretStored audited).disk key id =
      fetchOutcome key id (request.stores key) ((request.decides key id).getD false) := by
  have known : Advances (boot Disk.empty) (commandAt 1 (.upsertSvidVersion paymentsSvid)) paymentsKnown :=
    advances_apply (by decide +kernel)
  have elsewhere : Carries masterKey (commandAt 1 (.upsertSvidVersion paymentsSvid)).payload .elsewhere := by
    refine .elsewhere fun audited normal => ?_
    cases normal
    simp [AuditedCommand.system,FleetosCommand.LeavesSecrets,touches]
  have run : Run Advances (boot Disk.empty) _ (secretStored audited) := .cons known (.cons committed (.nil _))
  have outcome : fetchSecret (openEnvelope masterKey) (secretStored audited).disk key id = _ :=
    fetchSecret_run rfl run (.cons elsewhere (.cons requested.carries.1 .nil))
  have silent : SecretRequest.elsewhere.stores key = none ∧ SecretRequest.elsewhere.decides key id = none := ⟨rfl,rfl⟩
  simpa only [latest_cons,latest_nil,silent,Option.none_or,Option.or_none] using outcome

theorem named_secret_delivered : ∃ ask ephemeral delivery,
    ((servingSecret answeredUnderName).fetchSecret ephemeral (some paymentsApi) ask).1 = .ok delivery ∧
      ask.targetSpiffeId = storeUnderName.key ∧ delivery.Holds paymentsSvid storeUnderName.value := by
  have accepted : (adminServer Disk.empty).storeSecret fleetctlProxy "req-1" (sealEnvelope masterKey drawn)
      storeUnderName = .ok answeredUnderName := rfl
  have committed : Advances paymentsKnown ⟨logIdAt 2,.normal answeredUnderName⟩ (secretStored answeredUnderName) :=
    advances_apply (by decide +kernel)
  have requested : Requested masterKey answeredUnderName (.store paymentsApi.1 [1] [paymentsApi]) :=
    .store accepted (.cons rfl .nil)
  have fetched : fetchSecret (openEnvelope masterKey) (secretStored answeredUnderName).disk paymentsApi.1 paymentsApi =
      .ok [1] := (secretStored_outcome requested committed _ _).trans (by decide)
  obtain ⟨acl,loaded,listed,_⟩ := fetchSecret_eq_ok.mp fetched
  have current : readRecord SvidRecord (secretStored answeredUnderName).disk .svids (asBytes paymentsApi.1) =
      .ok (some paymentsSvid) := by decide +kernel
  exact (secret_reaches_reader_iff (servingSecret answeredUnderName) accepted rfl committed (.nil _) .nil (by simp) rfl
    loaded listed current).mpr ⟨⟨paymentsApi,rfl⟩,rfl,[],_,rfl⟩

/-- A password under its usual name is stored and returned to nobody. -/
theorem plain_key_unreachable : ∃ audited, (adminServer Disk.empty).storeSecret fleetctlProxy "req-1"
      (sealEnvelope masterKey drawn) (storeFor [paymentsApi]) = .ok audited ∧
    Advances paymentsKnown ⟨logIdAt 2,.normal audited⟩ (secretStored audited) ∧
    fetchSecret (openEnvelope masterKey) (secretStored audited).disk "db-password" paymentsApi = .ok [1] ∧
    readRecord SvidRecord (secretStored audited).disk .svids (asBytes paymentsApi.1) = .ok (some paymentsSvid) ∧
    paymentsSvid.agentX25519Pubkey.length = 32 ∧
    ∀ ask ephemeral delivery, ((servingSecret audited).fetchSecret ephemeral (some paymentsApi) ask).1 ≠ .ok delivery := by
  have committed : Advances paymentsKnown ⟨logIdAt 2,.normal (answeredStore [paymentsApi])⟩
      (secretStored (answeredStore [paymentsApi])) := advances_apply (by decide +kernel)
  have outcome := secretStored_outcome requested_payments committed
  have current : readRecord SvidRecord (secretStored (answeredStore [paymentsApi])).disk .svids (asBytes paymentsApi.1) =
      .ok (some paymentsSvid) := by decide +kernel
  refine ⟨answeredStore [paymentsApi],rfl,committed,(outcome _ _).trans (by decide),current,rfl,?_⟩
  intro ask ephemeral delivery answered
  obtain ⟨pubkey,plaintext,sealed,prepared,_⟩ := SecretServiceImpl.fetchSecret_ok.mp answered
  obtain ⟨⟨target,parsed⟩,_,found,_⟩ := (SecretServiceImpl.prepareDelivery_current current ask).mp prepared
  obtain ⟨_,allowed⟩ := fetchOutcome_ok.mp ((outcome ask.targetSpiffeId paymentsApi).symm.trans found)
  by_cases named : "db-password" = ask.targetSpiffeId
  · rw [← named] at parsed
    cases parsed
  · simp [SecretRequest.decides,named] at allowed

end FleetosControl
