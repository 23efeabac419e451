import FleetosControl.Ca.Service
import FleetosControl.Raft.Eviction
import FleetosControl.Tls.Listener

/-! Evicted identities. Revocation is looked at when a connection is accepted, so that open
connections, checked requests and grants outlive the eviction. -/
namespace FleetosControl
open Wire KeyValue Trace Views

section
variable [FleetosCore] [Formats]

theorem RevokedAs.isSvidRevoked (revoked : RevokedAs disk spiffeId record) : isSvidRevoked disk spiffeId = true := by
  obtain ⟨bytes,stored,_⟩ := revoked
  simp [FleetosControl.isSvidRevoked,stored]

variable [ProofCore]

structure HeldSvid where
  spiffeId : String
  notAfter : Int64

-- `ca/renewal.rs`, which signs for the control node it runs on
def controlIdentity (trustDomain nodeName : String) : String :=
  "spiffe://" ++ trustDomain ++ "/ns/system/control/" ++ nodeName

inductive Outcome where
  | svid (spiffeId : String) (csrDer : Bytes)
  | delegatedKey (nodeId : SpiffeId)
  | grant (control : Nat) (attested : Attested)

def Outcome.Serves (id : SpiffeId) : Outcome → Prop
  | .svid spiffeId _ => spiffeId = display id
  | .delegatedKey nodeId => nodeId = id
  | .grant _ attested => attested.spiffeId = display id

-- A CSR is checked for its first name and signed with all of them.
def Outcome.Names (id : SpiffeId) : Outcome → Prop
  | .svid _ csrDer => ∃ uris, csrUris csrDer = .ok uris ∧ display id ∈ uris
  | outcome => outcome.Serves id

section
variable [Merges]

/-- A proposal that has to commit before a request is answered, made from a state its control node has applied. -/
structure Stage where
  proposes : Disk → AuditedCommand → Prop
  accepted : ∀ view audited, proposes view audited → Proposed audited

def Stage.exactly (audited : AuditedCommand) (unchecked : audited.cmd.Unchecked) : Stage where
  proposes _ other := other = audited
  accepted _ _ same := same ▸ .unchecked unchecked

def Stage.nextVersion (spiffeId : String) (pubkey : Bytes) : Stage where
  proposes view audited := ∃ now record, nextSvid view spiffeId (some pubkey) now = .ok record ∧
    audited = .system (.upsertSvidVersion record)
  accepted _ _ made := by
    obtain ⟨_,_,_,rfl⟩ := made
    exact .unchecked trivial

structure Request where
  outcome : Outcome
  stages : List Stage

/-- Connections are authenticated, requests have passed their checks, and each control node holds its grants. -/
structure Identities where
  history : History Node
  clock : Int64
  connections : List SpiffeId
  requests : List Request
  grants : Nat → Contents
  svids : List HeldSvid

inductive IdentityEvent where
  | connected (view : Node) (id : SpiffeId)
  | disconnected (id : SpiffeId)
  | ticked (now : Int64)
  | applied (entry : Entry)
  | authorized (view : Node) (outcome : Outcome)
  | attested (outcome : Outcome)
  | finished (outcome : Outcome)
  | certified (spiffeId : String) (certDer : Bytes)
  | failed (outcome : Outcome)
  | renewed (spiffeId : String)

def IdentityEvent.Attests (id : SpiffeId) : IdentityEvent → Prop
  | .attested outcome => outcome.Serves id
  | _ => False

def IdentityEvent.Issues (id : SpiffeId) : IdentityEvent → Prop
  | .certified _ certDer => display id ∈ uriNames (subjectAltNames certDer)
  | .renewed spiffeId => spiffeId = display id
  | .finished (.delegatedKey nodeId) => nodeId = id
  | _ => False

namespace Identities

def Covers (state : Identities) (id : SpiffeId) (expires : Int64) : Prop :=
  ∀ svid ∈ state.svids, svid.spiffeId = display id → svid.notAfter ≤ expires

def Expired (state : Identities) (id : SpiffeId) : Prop :=
  ∀ svid ∈ state.svids, svid.spiffeId = display id → svid.notAfter < state.clock

/-- The identity is in the revoked set as long as it holds a certificate that has not expired. -/
def Revoked (state : Identities) (id : SpiffeId) : Prop :=
  ∀ svid ∈ state.svids, svid.spiffeId = display id → state.clock ≤ svid.notAfter →
    isSvidRevoked state.history.current.disk (display id) = true

/-- No connection, request or grant, and no certificate that outlasts the entry. -/
structure Quiet (state : Identities) (id : SpiffeId) (expires : Int64) : Prop where
  notWorkload : FleetosCore.kind id ≠ .sa
  notControl : ∀ trustDomain nodeName, display id ≠ controlIdentity trustDomain nodeName
  connections : id ∉ state.connections
  requests : ∀ request ∈ state.requests, ¬request.outcome.Names id
  grants : ∀ control, (state.grants control)[asBytes (display id)]? = none
  covers : state.Covers id expires

end Identities

/-- Control nodes have applied the eviction, no CSR of another carries the name as well, nothing is placed, and pruning
follows the clock. -/
def IdentityEvent.Meets (id : SpiffeId) (eviction : History Node) (state : Identities) : IdentityEvent → Prop
  | .connected view peer => peer = id → eviction.Since state.history view
  | .authorized view (.delegatedKey nodeId) => nodeId = id → eviction.Since state.history view
  | .authorized _ outcome | .attested outcome => outcome.Names id → outcome.Serves id
  | .applied entry => (∀ record, entry.Places record → record.nodeId ≠ id) ∧
      (∀ cutoff, entry.Prunes cutoff → cutoff ≤ state.clock) ∧
      ∀ expires, entry.Evicts (display id) expires → state.Covers id expires
  | _ => True

structure Guarded (id : SpiffeId) (state : Identities) (node : Node) : Prop where
  filed : RevokedFiled node.disk
  clear : ¬PlacedOn node.disk id
  revoked : (∃ record, RevokedAs node.disk (display id) record ∧ state.Covers id record.expiresAtUnix) ∨
    state.Expired id

structure LockedOut (id : SpiffeId) (eviction : History Node) (state : Identities) : Prop where
  connections : id ∉ state.connections
  requests : ∀ request ∈ state.requests, ¬request.outcome.Names id
  grants : ∀ control, (state.grants control)[asBytes (display id)]? = none
  since : eviction.HoldsSince (Guarded id state) state.history

variable {id : SpiffeId} {state : Identities}

omit [ProofCore] in
theorem Guarded.revokes (guarded : Guarded id state node) (held : svid ∈ state.svids)
    (own : svid.spiffeId = display id) (valid : state.clock ≤ svid.notAfter) :
    isSvidRevoked node.disk (display id) = true := by
  rcases guarded.revoked with ⟨record,revoked,_⟩ | expired
  · exact revoked.isSvidRevoked
  · have past := Int64.lt_iff_toInt_lt.mp (expired svid held own)
    have still := Int64.le_iff_toInt_le.mp valid
    omega

variable {before : Identities}

omit [ProofCore] in
theorem Guarded.later {after : Identities} (guarded : Guarded id before node) (clock : before.clock ≤ after.clock)
    (svids : ∀ svid ∈ after.svids, svid.spiffeId = display id → svid ∈ before.svids) :
    Guarded id after node := by
  refine ⟨guarded.filed,guarded.clear,?_⟩
  rcases guarded.revoked with ⟨record,revoked,covers⟩ | expired
  · exact .inl ⟨record,revoked,fun svid held own => covers svid (svids svid held own) own⟩
  · refine .inr (fun svid held own => ?_)
    have past := Int64.lt_iff_toInt_lt.mp (expired svid (svids svid held own) own)
    have later := Int64.le_iff_toInt_le.mp clock
    exact Int64.lt_iff_toInt_lt.mpr (by omega)

variable {eviction : History Node}

theorem Guarded.advances {before after entry} (guarded : Guarded id state before)
    (advances : Advances before entry after) (accepted : entry.Accepted)
    (meets : IdentityEvent.Meets id eviction state (.applied entry)) : Guarded id state after := by
  obtain ⟨elsewhere,prunes,evictions⟩ := meets
  refine ⟨advances_revokedFiled advances guarded.filed,?_,?_⟩
  · intro placed
    have proposable : entry.Proposable := fun audited normal => proposed_proposable (accepted audited normal)
    rcases advances_placedOn advances proposable placed with earlier | ⟨record,places,own⟩
    · exact guarded.clear earlier
    · exact elsewhere record places own
  · rcases guarded.revoked with ⟨record,revoked,covers⟩ | expired
    · rcases advances_revokedAs advances guarded.filed revoked with kept | ⟨expires,evicts,again⟩ | ⟨cutoff,pruned,past⟩
      · exact .inl ⟨record,kept,covers⟩
      · exact .inl ⟨_,again,evictions expires evicts⟩
      · refine .inr (fun svid held own => ?_)
        have covered := Int64.le_iff_toInt_le.mp (covers svid held own)
        have below := Int64.lt_iff_toInt_lt.mp past
        have reached := Int64.le_iff_toInt_le.mp (prunes cutoff pruned)
        exact Int64.lt_iff_toInt_lt.mpr (by omega)
    · exact .inr expired

theorem LockedOut.revoked (locked : LockedOut id eviction state) : state.Revoked id :=
  fun _ held own valid => locked.since.current.revokes held own valid

theorem LockedOut.others (locked : LockedOut id eviction before)
    (split : before.requests = first ++ request :: last) :
    ¬request.outcome.Names id ∧ ∀ other ∈ first ++ last, ¬other.outcome.Names id := by
  refine ⟨locked.requests request (by simp [split]),?_⟩
  intro other member
  apply locked.requests
  rw [split]
  rcases mem_append.mp member with early | late
  · exact mem_append_left _ early
  · exact mem_append_right _ (mem_cons_of_mem _ late)

theorem eviction_locks {entry : Entry} {expires : Int64} (filed : Every Filed before.history.current.disk)
    (named : RevokedFiled before.history.current.disk) (evicts : entry.Evicts (display id) expires)
    (committed : Advances before.history.current entry next) (quiet : before.Quiet id expires) :
    LockedOut id (before.history.extend next) { before with history := before.history.extend next } := by
  obtain ⟨audited,normal,command⟩ := evicts
  refine ⟨quiet.connections,quiet.requests,quiet.grants,History.holdsSince_self ⟨?_,?_,?_⟩⟩
  · exact advances_revokedFiled committed named
  all_goals
    rcases committed.cases with ⟨same,writes,kind,payload,ok,contents⟩ | ⟨other,_⟩
    case inr => exact (other audited normal).elim
    cases payload.symm.trans normal
    rw [command] at ok
  · rintro ⟨placement,scanned,own⟩
    obtain ⟨key,bytes,stored,decoded⟩ := mem_scanRecords.mp scanned
    obtain ⟨node,record,parsed,rfl⟩ := evictNode_ok (filed .activeDelegations) ok
    rw [parse_display,Except.ok.injEq] at parsed
    rw [History.extend_current,contents .placements rfl,evictionWrites_placements _ _ _ _ _ (filed .placements)] at stored
    have elsewhere := (Option.filter_eq_some_iff.mp stored).2
    simp [hostedOn,decoded,own,parsed] at elsewhere
  · refine .inl ⟨⟨display id,expires⟩,⟨_,?_,fromBytes_toAllocvec _⟩,quiet.covers⟩
    rw [History.extend_current,contents .revokedSvids rfl,evictNode_revokes ok]
    exact insert_eq_some.mpr (.inl ⟨rfl,rfl⟩)

variable [SpiffeParts] [DelegatedKeyCore] [AppleSe] [Postcard SvidGrantRecord] [ActivationFormats] [Postcard TpmQuote]

/-- Any control node checks a request against what it has applied. Lifetimes are left open. -/
inductive IdentityStep (domains : TrustDomainConfig) : Identities → IdentityEvent → Identities → Prop where
  | connected {state : Identities} {view id svid} : state.history.Seen view →
      svid ∈ state.svids → svid.spiffeId = display id → state.clock ≤ svid.notAfter →
      acceptPeer domains view.disk (some (.ok id)) = .ok (some id) →
      IdentityStep domains state (.connected view id) { state with connections := id :: state.connections }
  | disconnected {state : Identities} {id before after} : state.connections = before ++ id :: after →
      IdentityStep domains state (.disconnected id) { state with connections := before ++ after }
  | ticked {state : Identities} {now : Int64} : state.clock ≤ now →
      IdentityStep domains state (.ticked now) { state with clock := now }
  | applied {state : Identities} {entry : Entry} {next} : entry.Accepted → Advances state.history.current entry next →
      IdentityStep domains state (.applied entry) { state with history := state.history.extend next }
  | csr {state : Identities} {view} {server : CaServer} {caller csrDer} {control : Nat} {storage record} :
      state.history.Seen view →
      server.storage .placements = view.disk .placements → server.storage .svids = view.disk .svids →
      server.storage .svidGrants = state.grants control → (∀ id, caller = some id → id ∈ state.connections) →
      server.authorizeCsr caller csrDer = (storage,.ok record) →
      IdentityStep domains state (.authorized view (.svid record.spiffeId csrDer))
        { state with
          requests := ⟨.svid record.spiffeId csrDer,[.exactly (.system (.upsertSvidVersion record)) trivial]⟩ ::
            state.requests
          grants := Function.update state.grants control (storage .svidGrants) }
  | delegation {state : Identities} {view config peer requestId req} {delegated : Delegated} {record}
      (shape : delegated.proposal.cmd = .issueDelegation record) : state.history.Seen view → peer ∈ state.connections →
      DelegationService.requestDelegatedKey config view.disk (some peer) requestId req = .ok delegated →
      IdentityStep domains state (.authorized view (.delegatedKey record.nodeId))
        { state with requests :=
          ⟨.delegatedKey record.nodeId,[.exactly delegated.proposal (by rw [shape]; trivial)]⟩ :: state.requests }
  | delegationByAdmin {state : Identities} {view} {server : AdminServer} {config peer requestId req}
      {delegated : Delegated} {record} (shape : delegated.proposal.cmd = .issueDelegation record) :
      state.history.Seen view →
      server.storage .placements = view.disk .placements →
      server.requestDelegatedKey config peer requestId req = .ok delegated →
      IdentityStep domains state (.authorized view (.delegatedKey record.nodeId))
        { state with requests :=
          ⟨.delegatedKey record.nodeId,[.exactly delegated.proposal (by rw [shape]; trivial)]⟩ :: state.requests }
  | proof {state : Identities} {server : AttestationServer} {req : ActivationProof} {storage : Disk}
      {activation : Activation} : server.checkProof req = (storage,.ok activation) →
      IdentityStep domains state (.attested (.svid activation.spiffeId req.csrDer))
        { state with requests := ⟨.svid activation.spiffeId req.csrDer,[.exactly activation.activate trivial,
          .nextVersion activation.spiffeId activation.agentX25519Pubkey]⟩ :: state.requests }
  | quote {state : Identities} {server : AttestationServer} {quote : AttestationQuote} {storage : Disk}
      {attested : Attested} (control : Nat) : server.checkQuote quote = (storage,.ok attested) →
      IdentityStep domains state (.attested (.grant control attested))
        { state with requests := ⟨.grant control attested,[.exactly attested.consume trivial]⟩ :: state.requests }
  | committed {state : Identities} {before after outcome stage stages view next audited logId} :
      state.requests = before ++ ⟨outcome,stage :: stages⟩ :: after → state.history.Seen view →
      stage.proposes view.disk audited → Advances state.history.current ⟨logId,.normal audited⟩ next →
      IdentityStep domains state (.applied ⟨logId,.normal audited⟩)
        { state with history := state.history.extend next, requests := before ++ ⟨outcome,stages⟩ :: after }
  -- the certificate serves as one for each of its names
  | issued {state : Identities} {before after spiffeId csrDer signedAt bundle ttlSecs certDer} (notAfter : Int64) :
      state.requests = before ++ ⟨.svid spiffeId csrDer,[]⟩ :: after →
      signCsr signedAt csrDer bundle ttlSecs = .ok certDer →
      IdentityStep domains state (.certified spiffeId certDer)
        { state with
          requests := before ++ after
          svids := (uriNames (subjectAltNames certDer)).map (⟨·,notAfter⟩) ++ state.svids }
  | delegated {state : Identities} {before after nodeId} :
      state.requests = before ++ ⟨.delegatedKey nodeId,[]⟩ :: after →
      IdentityStep domains state (.finished (.delegatedKey nodeId)) { state with requests := before ++ after }
  | granted {state : Identities} {before after} {control : Nat} {attested storage} (now : Int64) :
      state.requests = before ++ ⟨.grant control attested,[]⟩ :: after →
      storage .svidGrants = state.grants control →
      IdentityStep domains state (.finished (.grant control attested))
        { state with
          requests := before ++ after
          grants := Function.update state.grants control ((attested.finish storage now).1 .svidGrants) }
  | failed {state : Identities} {before after request} : state.requests = before ++ request :: after →
      IdentityStep domains state (.failed request.outcome) { state with requests := before ++ after }
  | renewed {state : Identities} (trustDomain nodeName : String) (notAfter : Int64) :
      IdentityStep domains state (.renewed (controlIdentity trustDomain nodeName))
        { state with svids := ⟨controlIdentity trustDomain nodeName,notAfter⟩ :: state.svids }

section
variable {domains : TrustDomainConfig} {before after : Identities} {event : IdentityEvent} {id : SpiffeId}
  {eviction : History Node}

theorem connected_other (step : IdentityStep domains before event after) (meets : event.Meets id eviction before)
    (locked : LockedOut id eviction before) : ∀ view peer, event = .connected view peer → peer ≠ id := by
  intro view peer connects same
  cases step with
  | connected seen held own valid accepted =>
    cases connects
    subst same
    have revoked := (locked.since.of_since (meets rfl)).revokes held own valid
    rw [acceptPeer_not_revoked accepted] at revoked
    cases revoked
  | _ => cases connects

theorem authorized_other (step : IdentityStep domains before event after) (notWorkload : FleetosCore.kind id ≠ .sa)
    (meets : event.Meets id eviction before) (locked : LockedOut id eviction before) :
    ∀ view outcome, event = .authorized view outcome → ¬outcome.Names id := by
  intro view outcome authorizes
  cases step with
  | csr seen placements svids grants connected accepted =>
    cases authorizes
    have away : ∀ peer, _ = some peer → peer ≠ id := fun peer caller same => locked.connections (same ▸ connected peer caller)
    exact fun named => (authorizeCsr_other accepted notWorkload away (by rw [grants]; exact locked.grants _)).1 (meets named)
  | delegation shape seen connected accepted =>
    cases authorizes
    obtain ⟨record,same,peer,_⟩ := DelegationService.requestDelegatedKey_proposes accepted
    obtain rfl := FleetosCommand.issueDelegation.inj (same.symm.trans shape)
    obtain rfl := Option.some.inj peer
    exact fun own => locked.connections (own ▸ connected)
  | delegationByAdmin shape seen placements accepted =>
    cases authorizes
    obtain ⟨record,same,from_⟩ := AdminServer.requestDelegatedKey_proposes accepted
    obtain rfl := FleetosCommand.issueDelegation.inj (same.symm.trans shape)
    intro own
    obtain ⟨placement,scanned,hosted⟩ := from_.hosted
    simp only [hosts,Bool.and_eq_true,decide_eq_true_eq] at hosted
    rw [scanRecords_congr placements] at scanned
    exact (locked.since.of_since (meets own)).clear ⟨placement,scanned,hosted.1.1.trans own⟩
  | _ => cases authorizes

theorem connections_step (step : IdentityStep domains before event after) (meets : event.Meets id eviction before)
    (locked : LockedOut id eviction before) : id ∉ after.connections := by
  have admitted := connected_other step meets locked
  cases step with
  | connected =>
    have other := admitted _ _ rfl
    intro member
    rcases mem_cons.mp member with own | open_
    · exact other own.symm
    · exact locked.connections open_
  | disconnected split =>
    intro member
    apply locked.connections
    rw [split]
    rcases mem_append.mp member with early | late
    · exact mem_append_left _ early
    · exact mem_append_right _ (mem_cons_of_mem _ late)
  | _ => exact locked.connections

theorem requests_step (step : IdentityStep domains before event after) (notWorkload : FleetosCore.kind id ≠ .sa)
    (away : ¬event.Attests id) (meets : event.Meets id eviction before) (locked : LockedOut id eviction before) :
    ∀ request ∈ after.requests, ¬request.outcome.Names id := by
  have authorized := authorized_other step notWorkload meets locked
  cases step with
  | csr | delegation | delegationByAdmin =>
    have other := authorized _ _ rfl
    intro request member
    rcases mem_cons.mp member with rfl | earlier
    · exact other
    · exact locked.requests request earlier
  | proof | quote =>
    intro request member
    rcases mem_cons.mp member with rfl | earlier
    · exact fun named => away (meets named)
    · exact locked.requests request earlier
  | @committed first last outcome stage stages view next audited logId split =>
    obtain ⟨moved,others⟩ := locked.others split
    intro request member
    rcases mem_append.mp member with early | late
    · exact others request (mem_append_left _ early)
    · rcases mem_cons.mp late with rfl | later
      · exact moved
      · exact others request (mem_append_right _ later)
  | issued _ split _ => exact (locked.others split).2
  | delegated split | failed split => exact (locked.others split).2
  | granted _ split => exact (locked.others split).2
  | connected | disconnected | ticked | applied | renewed => exact locked.requests

theorem grants_step (step : IdentityStep domains before event after) (notWorkload : FleetosCore.kind id ≠ .sa)
    (locked : LockedOut id eviction before) (control : Nat) :
    (after.grants control)[asBytes (display id)]? = none := by
  cases step with
  | @csr view server caller csrDer holder storage record seen placements svids grants connected accepted =>
    have away : ∀ peer, caller = some peer → peer ≠ id :=
      fun peer named same => locked.connections (same ▸ connected peer named)
    have held : (server.storage .svidGrants)[asBytes (display id)]? = none := by
      rw [grants]
      exact locked.grants holder
    by_cases same : control = holder
    · subst same
      simpa using (authorizeCsr_other accepted notWorkload away held).2
    · simpa [Function.update_of_ne same] using locked.grants control
  | @granted first last holder attested storage now split grants =>
    have other : attested.spiffeId ≠ display id := (locked.others split).1
    by_cases same : control = holder
    · subst same
      simpa [finish_other other,grants] using locked.grants control
    · simpa [Function.update_of_ne same] using locked.grants control
  | _ => exact locked.grants control

theorem since_step (step : IdentityStep domains before event after)
    (notControl : ∀ trustDomain nodeName, display id ≠ controlIdentity trustDomain nodeName)
    (meets : event.Meets id eviction before) (locked : LockedOut id eviction before) :
    eviction.HoldsSince (Guarded id after) after.history := by
  have unchanged : ∀ {next : Identities}, next.clock = before.clock → next.svids = before.svids →
      ∀ view, Guarded id before view → Guarded id next view := by
    intro next clock svids view guarded
    exact guarded.later (clock ▸ Int64.le_refl _) (fun svid held _ => svids ▸ held)
  cases step with
  | ticked later => exact locked.since.mono fun view guarded => guarded.later later (fun svid held _ => held)
  | applied accepted advances =>
    have next := locked.since.current.advances advances accepted meets
    exact (locked.since.extend next).mono (unchanged rfl rfl)
  | @committed first last outcome stage stages view next audited logId split seen proposes advances =>
    have accepted : Entry.Accepted ⟨logId,.normal audited⟩ := by
      intro other normal
      cases normal
      exact stage.accepted _ _ proposes
    have next := locked.since.current.advances advances accepted meets
    exact (locked.since.extend next).mono (unchanged rfl rfl)
  | issued notAfter split signed =>
    apply locked.since.mono
    intro view guarded
    refine guarded.later (Int64.le_refl _) ?_
    intro svid held own
    rcases mem_append.mp held with new | earlier
    · obtain ⟨name,listed,rfl⟩ := mem_map.mp new
      cases own
      exact ((locked.others split).1 ⟨_,signCsr_names signed,listed⟩).elim
    · exact earlier
  | renewed trustDomain nodeName notAfter =>
    apply locked.since.mono
    intro view guarded
    refine guarded.later (Int64.le_refl _) ?_
    intro svid held own
    rcases mem_cons.mp held with rfl | earlier
    · exact (notControl trustDomain nodeName own.symm).elim
    · exact earlier
  | _ => exact locked.since.mono (unchanged rfl rfl)

theorem issues_nothing (step : IdentityStep domains before event after)
    (notControl : ∀ trustDomain nodeName, display id ≠ controlIdentity trustDomain nodeName)
    (locked : LockedOut id eviction before) : ¬event.Issues id := by
  cases step with
  | issued _ split signed => exact fun named => (locked.others split).1 ⟨_,signCsr_names signed,named⟩
  | delegated split => exact (locked.others split).1
  | renewed trustDomain nodeName => exact fun own => notControl trustDomain nodeName own.symm
  | _ => exact fun issues => issues

theorem locked_step (step : IdentityStep domains before event after) (notWorkload : FleetosCore.kind id ≠ .sa)
    (notControl : ∀ trustDomain nodeName, display id ≠ controlIdentity trustDomain nodeName)
    (away : ¬event.Attests id) (meets : event.Meets id eviction before) (locked : LockedOut id eviction before) :
    LockedOut id eviction after where
  connections := connections_step step meets locked
  requests := requests_step step notWorkload away meets locked
  grants := grants_step step notWorkload locked
  since := since_step step notControl meets locked

end

/-- Until it attests again, the evicted identity stays revoked, and no certificate that names it and no key is issued. -/
theorem evicted_identity_gets_nothing {domains : TrustDomainConfig} {before : Identities} {entry : Entry} {next : Node}
    {id : SpiffeId} {expires : Int64} (filed : Every Filed before.history.current.disk)
    (named : RevokedFiled before.history.current.disk) (evicts : entry.Evicts (display id) expires)
    (committed : Advances before.history.current entry next) (quiet : before.Quiet id expires) {last : Identities}
    {trace : List (Transition Identities IdentityEvent)}
    (run : Run (IdentityStep domains) { before with history := before.history.extend next } trace last)
    (away : ∀ transition ∈ trace, ¬transition.label.Attests id)
    (meets : ∀ transition ∈ trace, transition.label.Meets id (before.history.extend next) transition.before) :
    Identities.Revoked { before with history := before.history.extend next } id ∧
      ∀ transition ∈ trace, ¬transition.label.Issues id ∧ transition.after.Revoked id := by
  have start := eviction_locks filed named evicts committed quiet
  have kept := run.invariant (LockedOut id (before.history.extend next))
    (fun transition => ¬transition.label.Attests id ∧
      transition.label.Meets id (before.history.extend next) transition.before) ?_ start
    (fun transition member => ⟨away transition member,meets transition member⟩)
  · refine ⟨start.revoked,?_⟩
    intro transition member
    obtain ⟨earlier,later⟩ := kept.1 transition member
    exact ⟨issues_nothing (run.step_of_mem transition member) quiet.notControl earlier,later.revoked⟩
  · intro before label after step conditions locked
    exact locked_step step quiet.notWorkload quiet.notControl conditions.1 conditions.2 locked

theorem renews_over_connection (domains : TrustDomainConfig) {server : CaServer} (control : Nat)
    (connected : id ∈ state.connections) (shown : server.storage = state.history.current.disk)
    (held : server.storage .svidGrants = state.grants control)
    (authorized : server.authorizeCsr (some id) csrDer = (server.storage,.ok record))
    (own : record.spiffeId = display id) (signed : signCsr signedAt csrDer bundle ttlSecs = .ok certDer)
    (upserts : Advances state.history.current ⟨logId,.normal (.system (.upsertSvidVersion record))⟩ next)
    (notAfter : Int64) : ∃ trace last, Run (IdentityStep domains) state trace last ∧
      (∀ transition ∈ trace, ¬transition.label.Attests id) ∧ ∃ transition ∈ trace, transition.label.Issues id := by
  let proposed : Request := ⟨.svid record.spiffeId csrDer,[.exactly (.system (.upsertSvidVersion record)) trivial]⟩
  let recorded : Request := ⟨.svid record.spiffeId csrDer,[]⟩
  obtain ⟨spiffeId,_,extracted,_,versioned⟩ := authorizeCsr_ok authorized
  obtain ⟨_,_,named,_⟩ := nextSvid_ok versioned
  have listed := extractSpiffeIdFromCsr_mem extracted (signCsr_names signed)
  rw [← named,own] at listed
  have peer : ∀ caller, some id = some caller → caller ∈ state.connections := by
    intro caller same
    cases same
    exact connected
  have pending : proposed :: state.requests = [] ++ proposed :: state.requests := rfl
  have waiting : recorded :: state.requests = [] ++ recorded :: state.requests := rfl
  refine ⟨_,_,.cons (.csr (.inl rfl) (by rw [shown]) (by rw [shown]) held peer authorized)
    (.cons (.committed pending (.inl rfl) rfl upserts) (.cons (.issued notAfter waiting signed) (.nil _))),?_,?_⟩
  · simp [IdentityEvent.Attests]
  · exact ⟨_,mem_cons_of_mem _ (mem_cons_of_mem _ mem_cons_self),listed⟩

end

end

open Reference NoMessages

def fleetDomains : TrustDomainConfig := ⟨"data.example.internal","admin.example.internal"⟩

def evictAgent : Entry := commandAt 1 (.evictNode agentId 1700086400)

def evictedAgent : Node := (apply (boot Disk.empty) [evictAgent]).1

def prunedAgent : Node := (apply evictedAgent [commandAt 2 (.pruneExpiredRevokedSvids 1700000100)]).1

def dayLongSvid : HeldSvid := ⟨agentId,1700086400⟩

theorem evictAgent_evicts : evictAgent.Evicts (display agent) 1700086400 := ⟨_,rfl,rfl⟩

theorem evictAgent_advances : Advances (boot Disk.empty) evictAgent evictedAgent := advances_apply (by decide +kernel)

theorem evictAgent_accepted : evictAgent.Accepted := by
  intro audited normal
  cases normal
  have first : AuditedCommand.system (.evictNode agentId 1700086400) ∈ NodeController.evictNode 86400 1700000000 agent :=
    mem_cons_self
  exact .nodeController first

def quietAgent : Identities := ⟨⟨boot Disk.empty,[]⟩,1700000000,[],[],fun _ => ∅,[dayLongSvid]⟩

theorem quietAgent_quiet : quietAgent.Quiet agent 1700086400 := by
  refine ⟨by decide +kernel,?_,not_mem_nil,by simp [quietAgent],by simp [quietAgent],?_⟩
  · intro trustDomain nodeName same
    have inside : asBytes "/ns/system/control/" <:+: asBytes agentId := by
      refine ⟨asBytes "spiffe://" ++ asBytes trustDomain,asBytes nodeName,?_⟩
      rw [← asBytes_append,← asBytes_append,← asBytes_append]
      exact congrArg asBytes same.symm
    exact absurd inside (by decide +kernel)
  · intro svid held own
    rw [mem_singleton.mp held]
    exact Int64.le_refl _

def pruningTrace : List (Transition Identities IdentityEvent) :=
  [⟨⟨⟨evictedAgent,[boot Disk.empty]⟩,1700000000,[],[],fun _ => ∅,[dayLongSvid]⟩,.ticked 1700000100,
      ⟨⟨evictedAgent,[boot Disk.empty]⟩,1700000100,[],[],fun _ => ∅,[dayLongSvid]⟩⟩,
    ⟨⟨⟨evictedAgent,[boot Disk.empty]⟩,1700000100,[],[],fun _ => ∅,[dayLongSvid]⟩,
      .applied (commandAt 2 (.pruneExpiredRevokedSvids 1700000100)),
      ⟨⟨prunedAgent,[evictedAgent,boot Disk.empty]⟩,1700000100,[],[],fun _ => ∅,[dayLongSvid]⟩⟩]

theorem pruningTrace_run : Run (IdentityStep fleetDomains)
    { quietAgent with history := quietAgent.history.extend evictedAgent } pruningTrace
    ⟨⟨prunedAgent,[evictedAgent,boot Disk.empty]⟩,1700000100,[],[],fun _ => ∅,[dayLongSvid]⟩ := by
  have accepted : (commandAt 2 (.pruneExpiredRevokedSvids 1700000100)).Accepted := by
    intro audited normal
    cases normal
    exact .unchecked trivial
  apply Run.cons (.ticked (by decide))
  apply Run.cons (.applied accepted (advances_apply (by decide +kernel)))
  exact .nil _

theorem agent_stays_out : Identities.Revoked { quietAgent with history := quietAgent.history.extend evictedAgent } agent ∧
    ∀ transition ∈ pruningTrace, ¬transition.label.Issues agent ∧ transition.after.Revoked agent := by
  have filed : Every Filed quietAgent.history.current.disk := by
    intro keyspace key bytes stored
    cases stored
  have named : RevokedFiled quietAgent.history.current.disk := by
    intro key bytes record stored
    cases stored
  refine evicted_identity_gets_nothing filed named evictAgent_evicts evictAgent_advances quietAgent_quiet
    pruningTrace_run ?_ ?_
  · simp [pruningTrace,IdentityEvent.Attests]
  · simp only [pruningTrace,mem_cons,not_mem_nil,or_false,forall_eq_or_imp,forall_eq]
    refine ⟨trivial,?_,?_,?_⟩
    · rintro record ⟨audited,normal,places⟩
      cases normal
      cases places
    · rintro cutoff ⟨audited,normal,prunes⟩
      cases normal
      cases prunes
      exact Int64.le_refl _
    · rintro expires ⟨audited,normal,evicts⟩
      cases normal
      cases evicts

def agentRenewal : AuditedCommand := .system (.upsertSvidVersion firstSvid)

def renewedAgent : Node := (apply evictedAgent [⟨logIdAt 2,.normal agentRenewal⟩]).1

/-- The agent connects, is evicted, and renews its certificate over the connection it has. -/
theorem agent_renews_after_eviction : ∃ connected evicted later last, Run (IdentityStep fleetDomains) quietAgent
      (⟨quietAgent,.connected (boot Disk.empty) agent,connected⟩ :: ⟨connected,.applied evictAgent,evicted⟩ :: later) last ∧
    evictAgent.Evicts (display agent) 1700086400 ∧
    (∀ transition ∈ later, ¬transition.label.Attests agent) ∧ ∃ transition ∈ later, transition.label.Issues agent := by
  have authorized : (caServer evictedAgent.disk).authorizeCsr (some agent) (csrNaming [agentId]) =
      (evictedAgent.disk,.ok firstSvid) := Prod.ext rfl (by decide +kernel)
  have upserts : Advances evictedAgent ⟨logIdAt 2,.normal agentRenewal⟩ renewedAgent := advances_apply (by decide +kernel)
  have signed : signCsr 1700000061 (csrNaming [agentId]) dataControl 86400 = .ok (csrNaming [agentId]) := by decide +kernel
  have ungranted : evictedAgent.disk .svidGrants = (boot Disk.empty).disk .svidGrants :=
    evictAgent_advances.outside (by simp)
  let connected : Identities := { quietAgent with connections := [agent] }
  let evicted : Identities := { connected with history := connected.history.extend evictedAgent }
  have connects : IdentityStep fleetDomains quietAgent (.connected (boot Disk.empty) agent) connected :=
    .connected (.inl rfl) mem_cons_self rfl (by decide) (by decide +kernel)
  have evicts : IdentityStep fleetDomains connected (.applied evictAgent) evicted :=
    .applied evictAgent_accepted evictAgent_advances
  have open_ : agent ∈ evicted.connections := mem_cons_self
  obtain ⟨later,last,run,away,issues⟩ :=
    renews_over_connection fleetDomains 0 open_ rfl ungranted authorized rfl signed upserts 1700086460
  exact ⟨connected,evicted,later,last,.cons connects (.cons evicts run),evictAgent_evicts,away,issues⟩

end FleetosControl
