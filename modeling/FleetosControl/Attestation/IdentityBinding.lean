import FleetosControl.Ca.ReferencePlatform

/-! The key that a challenge is made for and the identity an endorsement key is bound to. Both come
from the request; the record is not compared. -/
namespace FleetosControl
open Wire KeyValue

section
variable [AttestationCore] {req : ActivationRequest}

theorem makeChallenge_ok (ok : AttestationServer.makeChallenge draw nonce req = .ok challenge) :
    ∃ key, activationKey req = .ok key ∧ makeCredential key req.akPub draw.secret draw.seed =
      .ok (challenge.credentialBlob,challenge.secret) := by
  obtain ⟨key,resolved,ok⟩ := bind_ok ok
  obtain ⟨⟨blob,enc⟩,made,ok⟩ := bind_ok ok
  cases ok
  exact ⟨key,resolved,mapError_ok.mp made⟩

theorem activationKey_matches_iff (given : req.ekCertDer ≠ [] ∨ req.ekPub ≠ [])
    (computed : ekFingerprint req.ekCertDer req.ekPub = .ok fingerprint) (resolved : activationKey req = .ok key) :
    ofEkPub key = fingerprint ↔ req.ekCertDer = [] ∨ req.ekPub = [] ∨
      ofEkCert req.ekCertDer = .ok (ofEkPub req.ekPub) := by
  by_cases pub : req.ekPub = []
  · -- the key comes from the certificate, like the fingerprint
    have extracted : AttestationCore.extractSpkiFromCert req.ekCertDer = .ok key := by
      simpa [activationKey,pub,mapError_ok] using resolved
    rcases ekFingerprint_ok computed with ⟨noCert,_⟩ | ⟨_,same⟩
    · simp [noCert,pub] at given
    · have converged := (AttestationCore.ofEkCert_iff _ _).mpr ⟨key,extracted,rfl⟩
      simp [pub,Except.ok.inj (converged.symm.trans same)]
  · obtain rfl : req.ekPub = key := by simpa [activationKey,pub] using resolved
    rcases ekFingerprint_ok computed with ⟨noCert,same⟩ | ⟨cert,same⟩
    · simp [noCert,same]
    · rw [same]
      simp [cert,pub,eq_comm]

end

section
variable [FleetosCore] [Formats] [AttestationCore]

/-- Whoever can recover the secret of a challenge holds the registered key. -/
def AnswerableOnlyBy (record : NodeEkRecord) (secret : Bytes) (challenge : ActivationChallenge) : Prop :=
  ∀ key, AttestationCore.activateCredential key (challenge.credentialBlob,challenge.secret) = some secret →
    record.publicKey = .ok key

variable [ProofCore] {server : AttestationServer} {req : ActivationRequest}

theorem matchEk_ok (ok : server.matchEk req = .ok (fingerprint,record)) :
    (req.ekCertDer ≠ [] ∨ req.ekPub ≠ []) ∧ ekFingerprint req.ekCertDer req.ekPub = .ok fingerprint ∧
      usableEk server.storage server.now fingerprint = .ok record := by
  obtain ⟨_,_,ok⟩ := bind_ok ok
  split at ok
  · cases ok
  obtain ⟨_,given,ok⟩ := bind_ok ok
  obtain ⟨_,_,ok⟩ := bind_ok ok
  obtain ⟨_,_,ok⟩ := bind_ok ok
  obtain ⟨computed,same,ok⟩ := bind_ok ok
  obtain ⟨found,usable,ok⟩ := bind_ok ok
  cases ok
  exact ⟨requireEk_ok given,same,usable⟩

variable [ActivationFormats]

theorem requestActivation_ok (ok : (server.requestActivation draw req).2 = .ok challenge) :
    ∃ fingerprint record key, server.matchEk req = .ok (fingerprint,record) ∧ activationKey req = .ok key ∧
      makeCredential key req.akPub draw.secret draw.seed =
        .ok (challenge.credentialBlob,challenge.secret) := by
  unfold AttestationServer.requestActivation at ok
  split at ok
  · cases ok
  case h_2 fingerprint record found =>
    split at ok
    · cases ok
    · obtain ⟨key,resolved,made⟩ := makeChallenge_ok ok
      exact ⟨fingerprint,record,key,found,resolved,made⟩

/-- Only the holder of the registered key can answer, unless the request names two keys. -/
theorem challenge_for_registered_key_iff (server : AttestationServer) (registered : Registered server.storage)
    (collisionFree : Function.Injective ofEkPub) (draw : ActivationDraw) (req : ActivationRequest)
    (challenge : ActivationChallenge) (accepted : (server.requestActivation draw req).2 = .ok challenge) :
    ∃ fingerprint record key, server.matchEk req = .ok (fingerprint,record) ∧ record.state ≠ .revoked ∧
      makeCredential key req.akPub draw.secret draw.seed =
        .ok (challenge.credentialBlob,challenge.secret) ∧
      (record.publicKey = .ok key ∧ AnswerableOnlyBy record draw.secret challenge ↔
        req.ekCertDer = [] ∨ req.ekPub = [] ∨
          ofEkCert req.ekCertDer = .ok (ofEkPub req.ekPub)) := by
  obtain ⟨fingerprint,record,key,found,resolved,made⟩ := requestActivation_ok accepted
  obtain ⟨given,computed,usable⟩ := matchEk_ok found
  obtain ⟨⟨bytes,stored,decoded⟩,active⟩ := usableEk_ok usable
  obtain ⟨kept,publicKey,same,under,known,fingerprinted⟩ := registered.bound .nodeEks _ _ stored rfl
  obtain rfl : kept = record := Except.ok.inj (same.symm.trans decoded)
  obtain rfl : fingerprint = kept.ekFingerprint := asBytes_injective under
  refine ⟨_,kept,key,found,active,made,?_⟩
  rw [← activationKey_matches_iff given computed resolved,known]
  constructor
  · rintro ⟨own,_⟩
    rw [← Except.ok.inj own]
    exact fingerprinted
  · intro agrees
    obtain rfl : publicKey = key := collisionFree (fingerprinted.trans agrees.symm)
    refine ⟨rfl,fun other opened => ?_⟩
    rw [AttestationCore.activate_make _ _ _ _ _ made] at opened
    split at opened
    case isTrue same => rw [known,same]
    case isFalse => cases opened

end

section
open Reference

theorem challenge_for_agent_key : ∃ challenge fingerprint record key,
    ((secureServer agentNode.disk).requestActivation draw ⟨[],[1,2,3],[7]⟩).2 = .ok challenge ∧
    (secureServer agentNode.disk).matchEk ⟨[],[1,2,3],[7]⟩ = .ok (fingerprint,record) ∧
    record.publicKey = .ok key ∧ AnswerableOnlyBy record draw.secret challenge := by
  obtain ⟨challenge,accepted⟩ : ∃ challenge,
      ((secureServer agentNode.disk).requestActivation draw ⟨[],[1,2,3],[7]⟩).2 = .ok challenge := ⟨_,rfl⟩
  obtain ⟨fingerprint,record,key,found,_,_,same⟩ := challenge_for_registered_key_iff _ agentNode_registered hex_injective
    draw _ challenge accepted
  obtain ⟨own,only⟩ := same.mpr (.inl rfl)
  exact ⟨challenge,fingerprint,record,key,accepted,found,own,only⟩

/-- With the agent's certificate and a key of their own a stranger can answer. -/
theorem challenge_for_unregistered_key : ∃ challenge fingerprint record,
    Registered (secureServer agentNode.disk).storage ∧
    ((secureServer agentNode.disk).requestActivation draw ⟨[48,1,2,3],[9,9,9],[7]⟩).2 = .ok challenge ∧
    (secureServer agentNode.disk).matchEk ⟨[48,1,2,3],[9,9,9],[7]⟩ = .ok (fingerprint,record) ∧
    record.publicKey = .ok [1,2,3] ∧
    AttestationCore.activateCredential [9,9,9] (challenge.credentialBlob,challenge.secret) = some draw.secret ∧
    usableEk agentNode.disk 1700000060 (ofEkPub [9,9,9]) = permissionDenied "EK not registered" ∧
    ¬ AnswerableOnlyBy record draw.secret challenge := by
  obtain ⟨challenge,accepted⟩ : ∃ challenge,
      ((secureServer agentNode.disk).requestActivation draw ⟨[48,1,2,3],[9,9,9],[7]⟩).2 = .ok challenge := ⟨_,rfl⟩
  obtain ⟨⟨fingerprint,record⟩,found⟩ : ∃ found,
      (secureServer agentNode.disk).matchEk ⟨[48,1,2,3],[9,9,9],[7]⟩ = .ok found := ⟨_,rfl⟩
  cases accepted
  cases found
  refine ⟨_,_,_,agentNode_registered,rfl,rfl,rfl,rfl,rfl,?_⟩
  intro only
  have own := only [9,9,9] rfl
  revert own
  decide

end

open Trace

section
variable [FleetosCore] [Formats] {disk left right : Disk} {fingerprint identity : String} {record : NodeEkRecord}
  {before after : Node} {entry : Entry} {response : FleetosResponse}

def EkStored (disk : Disk) (fingerprint : String) (record : NodeEkRecord) : Prop :=
  ∃ bytes, (disk .nodeEks)[asBytes fingerprint]? = some bytes ∧ fromBytes bytes = .ok record

def BoundTo (disk : Disk) (fingerprint identity : String) : Prop :=
  ∃ record, EkStored disk fingerprint record ∧ record.nodeId = identity

theorem EkStored.unique {left right} (first : EkStored disk fingerprint left)
    (second : EkStored disk fingerprint right) : left = right := by
  obtain ⟨bytes,stored,decoded⟩ := first
  obtain ⟨bytes',stored',decoded'⟩ := second
  obtain rfl : bytes = bytes' := Option.some.inj (stored.symm.trans stored')
  exact Except.ok.inj (decoded.symm.trans decoded')

theorem BoundTo.unique {left right} (first : BoundTo disk fingerprint left)
    (second : BoundTo disk fingerprint right) : left = right := by
  obtain ⟨_,stored,rfl⟩ := first
  obtain ⟨_,stored',rfl⟩ := second
  rw [stored.unique stored']

theorem EkStored.congr (same : left .nodeEks = right .nodeEks) (stored : EkStored left fingerprint record) :
    EkStored right fingerprint record := by
  obtain ⟨bytes,found,decoded⟩ := stored
  exact ⟨bytes,same ▸ found,decoded⟩

theorem BoundTo.congr (same : left .nodeEks = right .nodeEks) (bound : BoundTo left fingerprint identity) :
    BoundTo right fingerprint identity := by
  obtain ⟨record,stored,named⟩ := bound
  exact ⟨record,stored.congr same,named⟩

theorem EkStored.put (disk : Disk) (stored : EkStored disk fingerprint record) (written : String) (value : NodeEkRecord) :
    EkStored (commit disk [put .nodeEks (asBytes written) value]) fingerprint
      (if written = fingerprint then value else record) := by
  obtain ⟨bytes,found,decoded⟩ := stored
  split
  case isTrue same =>
    subst same
    exact ⟨toAllocvec value,by simp [FleetosControl.put,perform,Write.on],by simp⟩
  case isFalse other =>
    refine ⟨bytes,?_,decoded⟩
    simp only [FleetosControl.put,commit_cons,commit_nil,perform,Write.on,Write.table_insert,
      Function.update_self]
    exact insert_eq_some.mpr (.inr ⟨fun same => other (asBytes_injective same).symm,found⟩)

theorem updateNodeEk_stored {change : NodeEkRecord → NodeEkRecord}
    (ok : updateNodeEk disk updated change = .ok (writes,kind)) (stored : EkStored disk fingerprint record) :
    EkStored (commit disk writes) fingerprint (if updated = fingerprint then change record else record) := by
  have present := readRecord_some.mpr stored
  obtain ⟨found,read,ok⟩ := bind_ok ok
  cases found with
  | none =>
    cases ok
    have other : updated ≠ fingerprint := by
      rintro rfl
      cases read.symm.trans present
    simpa [other] using stored
  | some before =>
    cases ok
    by_cases same : updated = fingerprint
    · subst same
      cases read.symm.trans present
      simpa using stored.put disk updated (change record)
    · simpa [same] using stored.put disk updated (change before)

def Entry.RegistersAs (entry : Entry) (fingerprint identity : String) : Prop :=
  ∃ audited record, entry.payload = .normal audited ∧ audited.cmd = .registerNodeEk record ∧
    record.ekFingerprint = fingerprint ∧ record.nodeId = identity

def Entry.Activates (entry : Entry) : Prop :=
  ∃ audited fingerprint nodeId, entry.payload = .normal audited ∧ audited.cmd = .activateNodeEk fingerprint nodeId

theorem advances_ek (advances : Advances before entry after) {holds : NodeEkRecord → Prop}
    (stored : EkStored before.disk fingerprint record) (start : holds record)
    (registers : ∀ audited registered, entry.payload = .normal audited → audited.cmd = .registerNodeEk registered →
      registered.ekFingerprint = fingerprint → holds registered)
    (activates : ∀ audited nodeId, entry.payload = .normal audited → audited.cmd = .activateNodeEk fingerprint nodeId →
      holds { record with state := .joined, nodeId := nodeId }) (revokes : holds { record with state := .revoked }) :
    ∃ kept, EkStored after.disk fingerprint kept ∧ holds kept := by
  rcases advances.cases with ⟨audited,writes,kind,normal,ok,contents⟩ | ⟨_,same⟩
  case inr => exact ⟨record,stored.congr (same .nodeEks rfl).symm,start⟩
  have contents := (contents .nodeEks rfl).symm
  cases command : audited.cmd <;> rw [command] at ok
  case registerNodeEk registered =>
    cases ok
    refine ⟨_,(stored.put before.disk registered.ekFingerprint registered).congr contents,?_⟩
    split
    case isTrue same => exact registers audited registered normal command same
    case isFalse => exact start
  case activateNodeEk updated nodeId =>
    refine ⟨_,(updateNodeEk_stored ok stored).congr contents,?_⟩
    split
    case isTrue same => exact activates audited nodeId normal (same ▸ command)
    case isFalse => exact start
  case revokeNodeEk updated =>
    refine ⟨_,(updateNodeEk_stored ok stored).congr contents,?_⟩
    split
    · exact revokes
    · exact start
  all_goals
    have frame := applyCommand_frame ok .nodeEks (by simp [touches])
    exact ⟨record,stored.congr (frame.symm.trans contents),start⟩

theorem applyEntry_bound (ok : applyEntry before entry = .ok (after,response))
    (bound : BoundTo before.disk fingerprint identity)
    (registers : ∀ named, entry.RegistersAs fingerprint named → named = identity) (activates : ¬ entry.Activates) :
    BoundTo after.disk fingerprint identity := by
  obtain ⟨record,stored,named⟩ := bound
  apply advances_ek ⟨response,ok⟩ stored named
  · intro audited registered normal command same
    exact registers registered.nodeId ⟨audited,registered,normal,command,same,rfl⟩
  · intro audited nodeId normal command
    exact (activates ⟨audited,fingerprint,nodeId,normal,command⟩).elim
  · exact named

theorem register_bound (ok : applyEntry before entry = .ok (after,response))
    (registers : entry.RegistersAs fingerprint named) : BoundTo after.disk fingerprint named := by
  obtain ⟨audited,record,normal,command,rfl,rfl⟩ := registers
  obtain ⟨writes,kind,payload,_,effect⟩ := applyEntry_effect ok
  refine BoundTo.congr (effect.application .nodeEks rfl).symm ⟨record,?_,rfl⟩
  simp only [payloadWrites,normal,command,applyCommand] at payload
  cases payload
  exact ⟨toAllocvec record,by simp [FleetosControl.put,perform,Write.on],by simp⟩

theorem activate_bound {activation : Activation}
    (ok : applyEntry before ⟨logId,.normal activation.activate⟩ = .ok (after,response))
    (bound : BoundTo before.disk fingerprint identity) :
    BoundTo after.disk fingerprint (if activation.ekFingerprint = fingerprint then activation.spiffeId else identity) := by
  obtain ⟨record,stored,rfl⟩ := bound
  obtain ⟨writes,kind,payload,_,effect⟩ := applyEntry_effect ok
  refine BoundTo.congr (effect.application .nodeEks rfl).symm ⟨_,updateNodeEk_stored payload stored,?_⟩
  split <;> rfl

section
variable [ProofCore] [ActivationFormats] {before after : Enrolment} {event : EnrolmentEvent}
  {fingerprint identity : String}

theorem requestActivation_frame [AttestationCore] (server : AttestationServer) (draw : ActivationDraw)
    (req : ActivationRequest) :
    (server.requestActivation draw req).1 .nodeEks = server.storage .nodeEks := by
  unfold AttestationServer.requestActivation
  split
  · rfl
  · split
    · rfl
    · exact commit_frame _ _ _ (by simp)

theorem checkProof_frame (server : AttestationServer) (req : ActivationProof) :
    (server.checkProof req).1 .nodeEks = server.storage .nodeEks := by
  have swept : ∀ keys : List Bytes, commit server.storage (keys.map fun key => .remove .pendingActivations key)
      .nodeEks = server.storage .nodeEks := by
    intro keys
    apply commit_frame
    intro write member
    obtain ⟨key,_,rfl⟩ := mem_map.mp member
    simp
  unfold AttestationServer.checkProof
  split
  · rfl
  split
  · rfl
  split
  · rfl
  split
  · rfl
  case h_2 scan _ =>
    simp only
    split
    · exact swept scan.expired
    · split
      · exact swept scan.expired
      · exact (commit_frame _ _ _ (by simp)).trans (swept scan.expired)

variable [AttestationCore]

-- With each accepted proof stands the CSR it came with.
structure Enrolment where
  node : Node
  proved : List (Bytes × Activation)

inductive EnrolmentEvent where
  | applied (entry : Entry)
  | requested (req : ActivationRequest)
  | proofSubmitted (req : ActivationProof)
  | activated (csrDer : Bytes) (activation : Activation)

/-- The clock, the mode and the CA are open. A certificate is obtained when its activation commits. -/
inductive EnrolmentStep : Enrolment → EnrolmentEvent → Enrolment → Prop where
  | applied {node after proved} {entry : Entry} {response} :
      ¬ entry.Activates → applyEntry node entry = .ok (after,response) →
      EnrolmentStep ⟨node,proved⟩ (.applied entry) ⟨after,proved⟩
  | requested {node : Node} {proved} {server : AttestationServer} {draw req} : server.storage = node.disk →
      EnrolmentStep ⟨node,proved⟩ (.requested req) ⟨{ node with disk := (server.requestActivation draw req).1 },proved⟩
  | rejected {node : Node} {proved} {server : AttestationServer} {req status} : server.storage = node.disk →
      (server.checkProof req).2 = .error status →
      EnrolmentStep ⟨node,proved⟩ (.proofSubmitted req) ⟨{ node with disk := (server.checkProof req).1 },proved⟩
  | accepted {node : Node} {proved} {server : AttestationServer} {req activation} : server.storage = node.disk →
      (server.checkProof req).2 = .ok activation →
      EnrolmentStep ⟨node,proved⟩ (.proofSubmitted req)
        ⟨{ node with disk := (server.checkProof req).1 },(req.csrDer,activation)::proved⟩
  | activated {node after proved csrDer activation logId response} : (csrDer,activation) ∈ proved →
      applyEntry node ⟨logId,.normal activation.activate⟩ = .ok (after,response) →
      EnrolmentStep ⟨node,proved⟩ (.activated csrDer activation) ⟨after,proved.erase (csrDer,activation)⟩

def RegistersOnly (fingerprint identity : String) (event : EnrolmentEvent) : Prop :=
  ∀ entry named, event = .applied entry → entry.RegistersAs fingerprint named → named = identity

def EnrolmentEvent.ActivatesFor (fingerprint : String) (csrDer certDer : Bytes) (event : EnrolmentEvent) : Prop :=
  ∃ activation, event = .activated csrDer activation ∧ activation.ekFingerprint = fingerprint ∧
    activation.certDer = certDer

/-- Every URI name of a certificate that the key obtains is the identity. -/
def IssuesOnly (fingerprint identity : String) (event : EnrolmentEvent) : Prop :=
  ∀ csrDer certDer, event.ActivatesFor fingerprint csrDer certDer →
    ∀ name ∈ uriNames (subjectAltNames certDer), name = identity

def AsksOnly (fingerprint identity : String) (event : EnrolmentEvent) : Prop :=
  ∀ csrDer certDer, event.ActivatesFor fingerprint csrDer certDer →
    ∀ uris, csrUris csrDer = .ok uris → ∀ uri ∈ uris, uri = identity

/-- The CSRs of the key, and its further registrations, carry no other name than the node id on record. -/
def NamesRecord (fingerprint : String) (transition : Transition Enrolment EnrolmentEvent) : Prop :=
  ∀ identity, BoundTo transition.before.node.disk fingerprint identity →
    AsksOnly fingerprint identity transition.label ∧ RegistersOnly fingerprint identity transition.label

def Signed (made : Bytes × Activation) : Prop :=
  extractSpiffeIdFromCsr made.1 = .ok made.2.spiffeId ∧ csrUris made.1 =
    .ok (uriNames (subjectAltNames made.2.certDer))

theorem signed_step (taken : EnrolmentStep before event after) (signed : ∀ made ∈ before.proved, Signed made) :
    ∀ made ∈ after.proved, Signed made := by
  cases taken with
  | applied | requested | rejected => exact signed
  | @accepted _ _ server req activation _ ok =>
    intro made member
    rcases mem_cons.mp member with rfl | earlier
    · have answered : server.checkProof req = (_,.ok activation) := Prod.ext rfl ok
      obtain ⟨bundle,_,_,extracted,certified⟩ := checkProof_ok answered
      exact ⟨extracted,signCsr_names certified⟩
    · exact signed made earlier
  | activated => exact fun made member => signed made (List.mem_of_mem_erase member)

theorem asksOnly_iff (taken : EnrolmentStep before event after) (signed : ∀ made ∈ before.proved, Signed made) :
    AsksOnly fingerprint identity event ↔ IssuesOnly fingerprint identity event := by
  have names : ∀ csrDer certDer, event.ActivatesFor fingerprint csrDer certDer →
      csrUris csrDer = .ok (uriNames (subjectAltNames certDer)) := by
    rintro csrDer certDer ⟨activation,rfl,_,rfl⟩
    cases taken with
    | activated member _ => exact (signed _ member).2
  constructor
  · exact fun asks csrDer certDer activates => asks csrDer certDer activates _ (names csrDer certDer activates)
  · intro issues csrDer certDer activates uris read
    rw [← Except.ok.inj ((names csrDer certDer activates).symm.trans read)]
    exact issues csrDer certDer activates

theorem bound_step (taken : EnrolmentStep before event after) (signed : ∀ made ∈ before.proved, Signed made)
    (bound : BoundTo before.node.disk fingerprint identity) (asks : AsksOnly fingerprint identity event)
    (registers : RegistersOnly fingerprint identity event) : BoundTo after.node.disk fingerprint identity := by
  cases taken with
  | @applied _ _ _ entry _ activates ok =>
    exact applyEntry_bound ok bound (fun named => registers entry named rfl) activates
  | @requested node _ server draw req storage =>
    exact bound.congr (storage ▸ (requestActivation_frame server draw req).symm)
  | @rejected node _ server req status storage _ => exact bound.congr (storage ▸ (checkProof_frame server req).symm)
  | @accepted node _ server req activation storage _ =>
    exact bound.congr (storage ▸ (checkProof_frame server req).symm)
  | @activated node _ _ csrDer activation logId _ member ok =>
    have kept := activate_bound ok bound
    split at kept
    case isTrue same =>
      obtain ⟨extracted,names⟩ := signed _ member
      have own := asks csrDer _ ⟨activation,rfl,same,rfl⟩ _ names _ (extractSpiffeIdFromCsr_mem extracted names)
      rwa [own] at kept
    case isFalse => exact kept

theorem bound_registers (taken : EnrolmentStep before event after)
    (bound : BoundTo after.node.disk fingerprint identity) : RegistersOnly fingerprint identity event := by
  intro entry named same registers
  subst same
  cases taken with
  | applied _ ok => exact (register_bound ok registers).unique bound

/-- A bound key keeps its identity exactly if every CSR and registration names the node id on record only. -/
theorem identity_kept_iff (fingerprint identity : String) (first last : Enrolment)
    (bound : BoundTo first.node.disk fingerprint identity) (signed : ∀ made ∈ first.proved, Signed made)
    (trace : List (Transition Enrolment EnrolmentEvent)) (run : Run EnrolmentStep first trace last) :
    (∀ transition ∈ trace, BoundTo transition.after.node.disk fingerprint identity ∧
      IssuesOnly fingerprint identity transition.label) ↔
    ∀ transition ∈ trace, NamesRecord fingerprint transition := by
  have certified := run.invariant (fun state => ∀ made ∈ state.proved, Signed made) (fun _ => True)
    (fun _ _ _ taken _ before => signed_step taken before) signed (fun _ _ => trivial)
  have asks_iff : ∀ transition ∈ trace, AsksOnly fingerprint identity transition.label ↔
      IssuesOnly fingerprint identity transition.label := fun transition member =>
    asksOnly_iff (run.step_of_mem transition member) (certified.1 transition member).1
  constructor
  · intro kept transition member named boundTo
    have states := run.invariant (fun state => BoundTo state.node.disk fingerprint identity)
      (fun transition => BoundTo transition.after.node.disk fingerprint identity) (fun _ _ _ _ after _ => after) bound
      (fun transition member => (kept transition member).1)
    have registers := bound_registers (run.step_of_mem transition member) (kept transition member).1
    rw [boundTo.unique (states.1 transition member).1]
    exact ⟨(asks_iff transition member).mpr (kept transition member).2,registers⟩
  · intro names
    have states := run.invariant (fun state => BoundTo state.node.disk fingerprint identity ∧
        ∀ made ∈ state.proved, Signed made) (NamesRecord fingerprint) (fun _ _ _ taken meets before => by
        obtain ⟨asks,registers⟩ := meets identity before.1
        exact ⟨bound_step taken before.2 before.1 asks registers,signed_step taken before.2⟩) ⟨bound,signed⟩ names
    intro transition member
    have before := (states.1 transition member).1.1
    exact ⟨(states.1 transition member).2.1,(asks_iff transition member).mp (names transition member identity before).1⟩

end

end

open Reference

def policyFor (identity : String) : Entry := commandAt 2 (.setPcrPolicy ⟨identity,[⟨0,11,[4]⟩],1700000000,true⟩)

def policyNode (identity : String) : Node := (apply agentNode [policyFor identity]).1

def agentRequest : ActivationRequest := ⟨[],[1,2,3],[7]⟩

def challengedNode (identity : String) : Node :=
  { policyNode identity with disk := ((secureServer (policyNode identity).disk).requestActivation draw agentRequest).1 }

def answerFor (identity : String) : ActivationProof :=
  ⟨draw.secret ++ List.replicate 32 5,(Codec.list Codec.string).encode [identity],
    toAllocvec [(⟨0,11,[4]⟩ : PcrValue)],[4],[7,4],[]⟩

def answeredNode (identity : String) : Node :=
  { challengedNode identity with disk := ((secureServer (challengedNode identity).disk).checkProof (answerFor identity)).1 }

def activationOf (identity : String) : Activation :=
  ⟨hex [1,2,3],identity,(Codec.list Codec.string).encode [identity],[]⟩

def provedFor (identity : String) : Bytes × Activation := ((answerFor identity).csrDer,activationOf identity)

def activatedNode (identity : String) : Node :=
  (apply (answeredNode identity) [⟨logIdAt 3,.normal (activationOf identity).activate⟩]).1

def enrolment (identity : String) : List (Transition Enrolment EnrolmentEvent) :=
  [⟨⟨agentNode,[]⟩,.applied (policyFor identity),⟨policyNode identity,[]⟩⟩,
    ⟨⟨policyNode identity,[]⟩,.requested agentRequest,⟨challengedNode identity,[]⟩⟩,
    ⟨⟨challengedNode identity,[]⟩,.proofSubmitted (answerFor identity),⟨answeredNode identity,[provedFor identity]⟩⟩,
    ⟨⟨answeredNode identity,[provedFor identity]⟩,.activated (answerFor identity).csrDer (activationOf identity),
      ⟨activatedNode identity,[]⟩⟩]

theorem enrolment_run {identity} (accepted : ((secureServer (challengedNode identity).disk).checkProof
    (answerFor identity)).2 = .ok (activationOf identity))
    (applies : (applyEntry (answeredNode identity) ⟨logIdAt 3,.normal (activationOf identity).activate⟩).isOk = true) :
    ∃ response, applyEntry (answeredNode identity) ⟨logIdAt 3,.normal (activationOf identity).activate⟩ =
        .ok (activatedNode identity,response) ∧
      Run EnrolmentStep ⟨agentNode,[]⟩ (enrolment identity) ⟨activatedNode identity,[]⟩ := by
  obtain ⟨response,committed⟩ : ∃ response, applyEntry (answeredNode identity)
      ⟨logIdAt 3,.normal (activationOf identity).activate⟩ = .ok (activatedNode identity,response) := by
    unfold activatedNode apply
    cases outcome : applyEntry (answeredNode identity) ⟨logIdAt 3,.normal (activationOf identity).activate⟩ with
    | error e => simp [outcome,Except.isOk,Except.toBool] at applies
    | ok result => exact ⟨result.2,rfl⟩
  have policy : ¬ (policyFor identity).Activates := by
    rintro ⟨audited,_,_,normal,command⟩
    cases normal
    cases command
  have answered : EnrolmentStep ⟨challengedNode identity,[]⟩ (.proofSubmitted (answerFor identity))
      ⟨answeredNode identity,[provedFor identity]⟩ := .accepted rfl accepted
  have activated : EnrolmentStep ⟨answeredNode identity,[provedFor identity]⟩
      (.activated (answerFor identity).csrDer (activationOf identity))
      ⟨activatedNode identity,[provedFor identity].erase (provedFor identity)⟩ := .activated mem_cons_self committed
  rw [List.erase_cons_head] at activated
  exact ⟨response,committed,
    .cons (.applied policy rfl) (.cons (.requested rfl) (.cons answered (.cons activated (.nil _))))⟩

theorem enrolment_registers (identity fingerprint named : String) :
    ∀ transition ∈ enrolment identity, RegistersOnly fingerprint named transition.label := by
  simp only [enrolment,mem_cons,not_mem_nil,or_false,forall_eq_or_imp,forall_eq]
  refine ⟨?_,?_,?_,?_⟩
  · rintro entry _ same ⟨audited,_,normal,command,_⟩
    cases same
    cases normal
    cases command
  all_goals
    intro _ _ same
    cases same

theorem agentNode_bound : BoundTo agentNode.disk (hex [1,2,3]) agentId := ⟨_,⟨_,rfl,rfl⟩,rfl⟩

theorem agent_enrols_as_itself : Run EnrolmentStep ⟨agentNode,[]⟩ (enrolment agentId) ⟨activatedNode agentId,[]⟩ ∧
    ∀ transition ∈ enrolment agentId, BoundTo transition.after.node.disk (hex [1,2,3]) agentId ∧
      IssuesOnly (hex [1,2,3]) agentId transition.label := by
  obtain ⟨_,_,run⟩ := enrolment_run (by decide +kernel : _ = Except.ok (activationOf agentId)) (by decide +kernel)
  have answered : BoundTo (answeredNode agentId).disk (hex [1,2,3]) agentId := ⟨_,⟨_,rfl,rfl⟩,rfl⟩
  have requested : csrUris (answerFor agentId).csrDer = .ok [agentId] := by decide +kernel
  have names : ∀ transition ∈ enrolment agentId, ∀ identity,
      BoundTo transition.before.node.disk (hex [1,2,3]) identity → AsksOnly (hex [1,2,3]) identity transition.label := by
    simp only [enrolment,mem_cons,not_mem_nil,or_false,forall_eq_or_imp,forall_eq]
    refine ⟨?_,?_,?_,?_⟩
    case refine_4 =>
      rintro identity bound _ _ ⟨_,same,_⟩ uris read uri member
      cases same
      rw [← Except.ok.inj (requested.symm.trans read),mem_singleton] at member
      exact member.trans (answered.unique bound)
    all_goals
      rintro _ _ _ _ ⟨_,same,_⟩
      cases same
  refine ⟨run,(identity_kept_iff _ agentId _ _ agentNode_bound (List.forall_mem_nil _) _ run).mpr ?_⟩
  intro transition member identity bound
  exact ⟨names transition member identity bound,enrolment_registers agentId _ identity transition member⟩

def strangerId : String := "spiffe://data.example.internal/ns/system/node/agent-2"

/-- The key registered for one agent obtains a certificate for another, and its record follows. -/
theorem agent_enrols_as_another : BoundTo agentNode.disk (hex [1,2,3]) agentId ∧
    Run EnrolmentStep ⟨agentNode,[]⟩ (enrolment strangerId) ⟨activatedNode strangerId,[]⟩ ∧
    (∀ transition ∈ enrolment strangerId, RegistersOnly (hex [1,2,3]) agentId transition.label) ∧
    (∃ transition ∈ enrolment strangerId, ∃ csrDer certDer, transition.label.ActivatesFor (hex [1,2,3]) csrDer certDer ∧
      uriNames (subjectAltNames certDer) = [strangerId]) ∧
    BoundTo (activatedNode strangerId).disk (hex [1,2,3]) strangerId ∧ strangerId ≠ agentId := by
  obtain ⟨_,committed,run⟩ := enrolment_run (by decide +kernel : _ = Except.ok (activationOf strangerId))
    (by decide +kernel)
  have answered : BoundTo (answeredNode strangerId).disk (hex [1,2,3]) agentId := ⟨_,⟨_,rfl,rfl⟩,rfl⟩
  have rebound : BoundTo (activatedNode strangerId).disk (hex [1,2,3]) strangerId := by
    simpa [activationOf] using activate_bound committed answered
  refine ⟨agentNode_bound,run,enrolment_registers strangerId _ agentId,?_,rebound,by decide⟩
  exact ⟨_,mem_cons_of_mem _ (mem_cons_of_mem _ (mem_cons_of_mem _ mem_cons_self)),
    _,_,⟨_,rfl,rfl,rfl⟩,by decide +kernel⟩

end FleetosControl
