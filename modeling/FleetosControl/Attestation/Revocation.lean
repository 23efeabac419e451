import FleetosControl.Attestation.IdentityBinding
import FleetosControl.Ca.Service

/-! Revoked endorsement keys. Only the check of a proof looks at the state of the key, so a
revocation holds against the proofs that are checked after it. -/
namespace FleetosControl
open KeyValue Trace Views

section
variable [FleetosCore] [Formats] {before after : Node} {fingerprint : String} {record : NodeEkRecord}

def EkRevoked (disk : Disk) (fingerprint : String) : Prop :=
  ∃ record, EkStored disk fingerprint record ∧ record.state = .revoked

theorem revoke_stored (advances : Advances before ⟨logId,.normal audited⟩ after)
    (revokes : audited.cmd = .revokeNodeEk fingerprint) (stored : EkStored before.disk fingerprint record) :
    EkRevoked after.disk fingerprint := by
  obtain ⟨writes,kind,ok,contents⟩ := advances.applied rfl
  rw [revokes] at ok
  have kept := (updateNodeEk_stored ok stored).congr (contents .nodeEks rfl).symm
  rw [if_pos rfl] at kept
  exact ⟨_,kept,rfl⟩

theorem advances_revoked (advances : Advances before entry after) (revoked : EkRevoked before.disk fingerprint)
    (registers : ∀ named, ¬entry.RegistersAs fingerprint named)
    (activates : ∀ audited nodeId, entry.payload = .normal audited → audited.cmd ≠ .activateNodeEk fingerprint nodeId) :
    EkRevoked after.disk fingerprint := by
  obtain ⟨record,stored,state⟩ := revoked
  apply advances_ek advances stored state
  · intro audited registered normal command same
    exact (registers registered.nodeId ⟨audited,registered,normal,command,same,rfl⟩).elim
  · intro audited nodeId normal command
    exact (activates audited nodeId normal command).elim
  · rfl

theorem usableEk_not_revoked {now : Int64} (usable : usableEk storage now fingerprint = .ok record) :
    ¬EkRevoked storage fingerprint := by
  rintro ⟨found,stored,state⟩
  obtain ⟨present,active⟩ := usableEk_ok usable
  have same : found = record := stored.unique present
  exact active (same ▸ state)

theorem activate_applies {node : Node} {activation : Activation} (logId : LogId)
    (revoked : EkRevoked node.disk activation.ekFingerprint) :
    ∃ next, Advances node ⟨logId,.normal activation.activate⟩ next := by
  obtain ⟨record,⟨bytes,stored,decoded⟩,_⟩ := revoked
  have read : readRecord NodeEkRecord node.disk .nodeEks (asBytes activation.ekFingerprint) = .ok (some record) :=
    readRecord_some.mpr ⟨bytes,stored,decoded⟩
  have payload : ∃ writes kind, payloadWrites node.disk ⟨logId,.normal activation.activate⟩ = .ok (writes,kind) := by
    simp [payloadWrites,Activation.activate,AuditedCommand.system,applyCommand,updateNodeEk,read,Bind.bind,Except.bind,
      Pure.pure,Except.pure]
  obtain ⟨writes,kind,payload⟩ := payload
  obtain ⟨next,response,ok⟩ := applyEntry_of_payload node _ payload
  exact ⟨next,response,ok⟩

def upsertSvid (logId : LogId) (record : SvidRecord) : Entry := ⟨logId,.normal (.system (.upsertSvidVersion record))⟩

theorem upsertSvid_applies (node : Node) (logId : LogId) (record : SvidRecord) :
    ∃ next, Advances node (upsertSvid logId record) next ∧
      (next.disk .svids)[asBytes record.spiffeId]? = some (toAllocvec record) := by
  obtain ⟨next,response,ok⟩ := applyEntry_of_payload node (upsertSvid logId record) rfl
  refine ⟨next,⟨response,ok⟩,?_⟩
  obtain ⟨writes,kind,payload,_,effect⟩ := applyEntry_effect ok
  cases payload
  rw [effect.application .svids rfl]
  simp [put,perform,Write.on]

theorem upsertSvid_not_activates (logId : LogId) (record : SvidRecord) : ¬(upsertSvid logId record).Activates := by
  rintro ⟨audited,fingerprint,nodeId,normal,command⟩
  cases normal
  cases command

theorem upsertSvid_not_registers (logId : LogId) (record : SvidRecord) (fingerprint named : String) :
    ¬(upsertSvid logId record).RegistersAs fingerprint named := by
  rintro ⟨audited,registered,normal,command,_⟩
  cases normal
  cases command

section
variable [ProofCore] [ActivationFormats] {before after : Activations}
  {fingerprint : String}

structure Activations where
  history : History Node
  proved : List Activation
  awaiting : List Activation

inductive ActivationEvent where
  | applied (entry : Entry)
  | accepted (view : Node) (activation : Activation)
  | activated (activation : Activation)
  | issued (activation : Activation)
  | failed (activation : Activation)

/-- Proofs are checked on any control node, against what it has applied so far. -/
inductive ActivationStep : Activations → ActivationEvent → Activations → Prop where
  | applied {state : Activations} {entry : Entry} {next} : ¬entry.Activates →
      Advances state.history.current entry next →
      ActivationStep state (.applied entry) { state with history := state.history.extend next }
  | accepted {state : Activations} {view} {server : AttestationServer} {req storage activation} :
      state.history.Seen view → server.storage .nodeEks = view.disk .nodeEks →
      server.checkProof req = (storage,.ok activation) →
      ActivationStep state (.accepted view activation) { state with proved := activation :: state.proved }
  | activated {state : Activations} {activation logId next} :
      activation ∈ state.proved → Advances state.history.current ⟨logId,.normal activation.activate⟩ next →
      ActivationStep state (.activated activation)
        ⟨state.history.extend next,state.proved.erase activation,activation :: state.awaiting⟩
  | issued {state : Activations} {activation view} {now : Int64} {record logId next} :
      activation ∈ state.awaiting → state.history.Seen view →
      nextSvid view.disk activation.spiffeId (some activation.agentX25519Pubkey) now = .ok record →
      Advances state.history.current (upsertSvid logId record) next →
      ActivationStep state (.issued activation)
        { state with history := state.history.extend next, awaiting := state.awaiting.erase activation }
  | failed (activation : Activation) : ActivationStep state (.failed activation)
      { state with proved := state.proved.erase activation, awaiting := state.awaiting.erase activation }

def ActivationEvent.Serves (fingerprint : String) : ActivationEvent → Prop
  | .activated activation | .issued activation => activation.ekFingerprint = fingerprint
  | _ => False

/-- Nobody registers the key again, and a control node that accepts a proof for it has applied the revocation. -/
def ActivationEvent.Keeps (fingerprint : String) : ActivationEvent → Prop
  | .applied entry => ∀ named, ¬entry.RegistersAs fingerprint named
  | .accepted view activation => activation.ekFingerprint = fingerprint → EkRevoked view.disk fingerprint
  | _ => True

def Activations.InFlight (state : Activations) (fingerprint : String) : Prop :=
  ∃ activation ∈ state.proved ++ state.awaiting, activation.ekFingerprint = fingerprint

structure Settled (fingerprint : String) (state : Activations) : Prop where
  revoked : EkRevoked state.history.current.disk fingerprint
  idle : ¬state.InFlight fingerprint

theorem idle_of_subset (idle : ¬before.InFlight fingerprint)
    (proved : ∀ activation ∈ after.proved, activation ∈ before.proved ++ before.awaiting)
    (awaiting : ∀ activation ∈ after.awaiting, activation ∈ before.proved ++ before.awaiting) :
    ¬after.InFlight fingerprint := by
  rintro ⟨activation,member,own⟩
  rcases mem_append.mp member with early | late
  · exact idle ⟨activation,proved activation early,own⟩
  · exact idle ⟨activation,awaiting activation late,own⟩

theorem settled_step (step : ActivationStep before event after) (keeps : event.Keeps fingerprint)
    (settled : Settled fingerprint before) :
    Settled fingerprint after ∧ ¬event.Serves fingerprint := by
  obtain ⟨revoked,idle⟩ := settled
  have others : ∀ activation ∈ before.proved ++ before.awaiting, activation.ekFingerprint ≠ fingerprint :=
    fun activation member same => idle ⟨activation,member,same⟩
  cases step with
  | applied activates advances =>
    refine ⟨⟨?_,idle⟩,id⟩
    apply advances_revoked advances revoked keeps
    intro audited nodeId normal command
    exact activates ⟨audited,fingerprint,nodeId,normal,command⟩
  | @accepted view server req storage activation seen same accepted =>
    refine ⟨⟨revoked,?_⟩,id⟩
    rintro ⟨found,member,own⟩
    rcases mem_cons.mp member with rfl | earlier
    · obtain ⟨bundle,ek,usable,_⟩ := checkProof_ok accepted
      obtain ⟨record,stored,state⟩ := keeps own
      have shown : EkRevoked server.storage fingerprint := ⟨record,stored.congr same.symm,state⟩
      rw [own] at usable
      exact usableEk_not_revoked usable shown
    · exact others found earlier own
  | @activated activation logId next member advances =>
    have apart := others activation (mem_append_left _ member)
    refine ⟨⟨?_,?_⟩,apart⟩
    · apply advances_revoked advances revoked
      · rintro named ⟨audited,registered,normal,command,_⟩
        cases normal
        cases command
      · intro audited nodeId normal command
        cases normal
        cases command
        exact apart rfl
    · apply idle_of_subset idle
      · exact fun found early => mem_append_left _ (List.mem_of_mem_erase early)
      · intro found late
        rcases mem_cons.mp late with rfl | late
        · exact mem_append_left _ member
        · exact mem_append_right _ late
  | @issued activation view now record logId next member seen read advances =>
    have apart := others activation (mem_append_right _ member)
    refine ⟨⟨?_,?_⟩,apart⟩
    · apply advances_revoked advances revoked (upsertSvid_not_registers logId record fingerprint)
      intro audited nodeId normal command
      exact upsertSvid_not_activates logId record ⟨audited,fingerprint,nodeId,normal,command⟩
    · apply idle_of_subset idle
      · exact fun found early => mem_append_left _ early
      · exact fun found late => mem_append_right _ (List.mem_of_mem_erase late)
  | failed activation =>
    refine ⟨⟨revoked,?_⟩,id⟩
    apply idle_of_subset idle
    · exact fun found early => mem_append_left _ (List.mem_of_mem_erase early)
    · exact fun found late => mem_append_right _ (List.mem_of_mem_erase late)

theorem served_in_flight {state : Activations} (revoked : EkRevoked state.history.current.disk fingerprint)
    (inFlight : state.InFlight fingerprint) (logId : LogId) :
    ∃ trace last, Run ActivationStep state trace last ∧ (∀ transition ∈ trace, transition.label.Keeps fingerprint) ∧
      ∃ transition ∈ trace, transition.label.Serves fingerprint := by
  obtain ⟨activation,member,rfl⟩ := inFlight
  rcases mem_append.mp member with proved | awaiting
  · obtain ⟨next,advances⟩ := activate_applies logId revoked
    refine ⟨_,_,.cons (.activated proved advances) (.nil _),?_,_,mem_cons_self,rfl⟩
    simp [ActivationEvent.Keeps]
  · -- another issuance for the identity makes sure that its version can be read
    obtain ⟨first,upserts,stored⟩ := upsertSvid_applies state.history.current logId ⟨activation.spiffeId,0,0,[]⟩
    have read : nextSvid first.disk activation.spiffeId (some activation.agentX25519Pubkey) 0 =
        .ok ⟨activation.spiffeId,0 + 1,0,activation.agentX25519Pubkey⟩ := by
      simp [nextSvid,readSvid,stored,Bind.bind,Except.bind,Pure.pure,Except.pure]
    obtain ⟨second,again,_⟩ := upsertSvid_applies first logId ⟨activation.spiffeId,0 + 1,0,activation.agentX25519Pubkey⟩
    have other := upsertSvid_not_activates logId ⟨activation.spiffeId,0,0,[]⟩
    refine ⟨_,_,.cons (.applied other upserts) (.cons (.issued awaiting (.inl rfl) read again) (.nil _)),?_,_,
      mem_cons_of_mem _ mem_cons_self,rfl⟩
    simpa [ActivationEvent.Keeps] using upsertSvid_not_registers logId _ activation.ekFingerprint

theorem revocation_holds_iff {before : Activations} {logId : LogId} {audited : AuditedCommand} {fingerprint : String}
    {record : NodeEkRecord} {next : Node} (registered : EkStored before.history.current.disk fingerprint record)
    (revokes : audited.cmd = .revokeNodeEk fingerprint)
    (committed : Advances before.history.current ⟨logId,.normal audited⟩ next) :
    (∀ trace last, Run ActivationStep { before with history := before.history.extend next } trace last →
      (∀ transition ∈ trace, transition.label.Keeps fingerprint) →
      ∀ transition ∈ trace, EkRevoked transition.after.history.current.disk fingerprint ∧
        ¬transition.label.Serves fingerprint) ↔
    ¬before.InFlight fingerprint := by
  have revoked := revoke_stored committed revokes registered
  constructor
  · intro holds inFlight
    have still : Activations.InFlight { before with history := before.history.extend next } fingerprint := inFlight
    obtain ⟨trace,last,run,keeps,transition,member,serves⟩ := served_in_flight revoked still logId
    exact (holds trace last run keeps transition member).2 serves
  · intro idle trace last run keeps
    have settled : Settled fingerprint { before with history := before.history.extend next } := ⟨revoked,idle⟩
    have kept := run.invariant (Settled fingerprint) (fun transition => transition.label.Keeps fingerprint)
      (fun _ _ _ step keeps settled => (settled_step step keeps settled).1) settled keeps
    intro transition member
    obtain ⟨first,second⟩ := kept.1 transition member
    exact ⟨second.revoked,(settled_step (run.step_of_mem transition member) (keeps transition member) first).2⟩

end

end

open Reference

variable {current next : Node} {earlier : List Node} {activation : Activation} {logId : LogId}

theorem acceptedStep {server : AttestationServer} (shown : server.storage .nodeEks = current.disk .nodeEks)
    (proved : (server.checkProof req).2 = .ok activation) :
    ActivationStep ⟨⟨current,earlier⟩,[],[]⟩ (.accepted current activation) ⟨⟨current,earlier⟩,[activation],[]⟩ :=
  .accepted (.inl rfl) shown (Prod.ext rfl proved)

theorem appliedStep {entry : Entry} (other : ¬entry.Activates) (advances : Advances current entry next) :
    ActivationStep ⟨⟨current,earlier⟩,proved,[]⟩ (.applied entry) ⟨⟨next,current::earlier⟩,proved,[]⟩ :=
  .applied other advances

theorem activatedStep (advances : Advances current ⟨logId,.normal activation.activate⟩ next) :
    ActivationStep ⟨⟨current,earlier⟩,[activation],[]⟩ (.activated activation)
      ⟨⟨next,current::earlier⟩,[],[activation]⟩ := by
  have step : ActivationStep ⟨⟨current,earlier⟩,[activation],[]⟩ _ _ := .activated mem_cons_self advances
  rwa [List.erase_cons_head] at step

theorem issuedStep {now : Int64}
    (read : nextSvid current.disk activation.spiffeId (some activation.agentX25519Pubkey) now = .ok record)
    (advances : Advances current (upsertSvid logId record) next) :
    ActivationStep ⟨⟨current,earlier⟩,[],[activation]⟩ (.issued activation) ⟨⟨next,current::earlier⟩,[],[]⟩ := by
  have step : ActivationStep ⟨⟨current,earlier⟩,[],[activation]⟩ _ _ :=
    .issued mem_cons_self (.inl rfl) read advances
  rwa [List.erase_cons_head] at step

theorem challengedNode_eks (identity : String) :
    (secureServer (challengedNode identity).disk).storage .nodeEks = (policyNode identity).disk .nodeEks := by
  have frame := requestActivation_frame (secureServer (policyNode identity).disk) draw agentRequest
  dsimp only [challengedNode,secureServer] at frame ⊢
  exact frame

def agentRevocation : AuditedCommand := ⟨.revokeNodeEk (hex [1,2,3]),
  some ((adminServer (policyNode agentId).disk).buildAuditContext fleetctlProxy "req-2" (hex [1,2,3]))⟩

def revokedNode : Node := (apply (policyNode agentId) [⟨logIdAt 3,.normal agentRevocation⟩]).1

theorem revocation_advances : Advances (policyNode agentId) ⟨logIdAt 3,.normal agentRevocation⟩ revokedNode :=
  advances_apply (by decide +kernel)

theorem policyNode_registered : EkStored (policyNode agentId).disk (hex [1,2,3])
    ⟨hex [1,2,3],[1,2,3],[],agentId,1700000000,some 1700003600,.pending⟩ := by
  exact readRecord_some.mp (by decide +kernel)

def nobodyJoining : Activations := ⟨⟨policyNode agentId,[]⟩,[],[]⟩

def controlSvid : SvidRecord := ⟨"spiffe://data.example.internal/ns/system/control/control-0",1,1700000060,[]⟩

def stillRevokedNode : Node := (apply revokedNode [upsertSvid (logIdAt 4) controlSvid]).1

def idleTrace : List (Transition Activations ActivationEvent) :=
  [⟨⟨⟨revokedNode,[policyNode agentId]⟩,[],[]⟩,.applied (upsertSvid (logIdAt 4) controlSvid),
    ⟨⟨stillRevokedNode,[revokedNode,policyNode agentId]⟩,[],[]⟩⟩]

theorem idleTrace_run : Run ActivationStep ⟨⟨revokedNode,[policyNode agentId]⟩,[],[]⟩ idleTrace
    ⟨⟨stillRevokedNode,[revokedNode,policyNode agentId]⟩,[],[]⟩ := by
  have other := upsertSvid_not_activates (logIdAt 4) controlSvid
  apply Run.cons (appliedStep other (advances_apply (by decide +kernel)))
  exact .nil _

theorem agent_revoked_while_idle : ¬nobodyJoining.InFlight (hex [1,2,3]) ∧
    ∀ transition ∈ idleTrace, EkRevoked transition.after.history.current.disk (hex [1,2,3]) ∧
      ¬transition.label.Serves (hex [1,2,3]) := by
  have current : nobodyJoining.history.current = policyNode agentId := by rw [nobodyJoining]
  have registered := policyNode_registered
  have committed := revocation_advances
  rw [← current] at registered committed
  have idle : ¬nobodyJoining.InFlight (hex [1,2,3]) := by simp [Activations.InFlight,nobodyJoining]
  have holds := (revocation_holds_iff registered rfl committed).mpr idle idleTrace
  dsimp only [nobodyJoining,History.extend] at holds
  refine ⟨idle,holds _ idleTrace_run ?_⟩
  intro transition member
  rw [mem_singleton.mp member]
  exact upsertSvid_not_registers _ _ _

def rejoinedNode : Node := (apply revokedNode [⟨logIdAt 4,.normal (activationOf agentId).activate⟩]).1

def lateSvid : SvidRecord := ⟨agentId,1,1700000060,[]⟩

def lateNode : Node := (apply rejoinedNode [upsertSvid (logIdAt 5) lateSvid]).1

def lateActivation : List (Transition Activations ActivationEvent) :=
  [⟨⟨⟨policyNode agentId,[]⟩,[],[]⟩,.accepted (policyNode agentId) (activationOf agentId),
      ⟨⟨policyNode agentId,[]⟩,[activationOf agentId],[]⟩⟩,
    ⟨⟨⟨policyNode agentId,[]⟩,[activationOf agentId],[]⟩,.applied ⟨logIdAt 3,.normal agentRevocation⟩,
      ⟨⟨revokedNode,[policyNode agentId]⟩,[activationOf agentId],[]⟩⟩,
    ⟨⟨⟨revokedNode,[policyNode agentId]⟩,[activationOf agentId],[]⟩,.activated (activationOf agentId),
      ⟨⟨rejoinedNode,[revokedNode,policyNode agentId]⟩,[],[activationOf agentId]⟩⟩,
    ⟨⟨⟨rejoinedNode,[revokedNode,policyNode agentId]⟩,[],[activationOf agentId]⟩,.issued (activationOf agentId),
      ⟨⟨lateNode,[rejoinedNode,revokedNode,policyNode agentId]⟩,[],[]⟩⟩]

theorem lateActivation_run : Run ActivationStep ⟨⟨policyNode agentId,[]⟩,[],[]⟩ lateActivation
    ⟨⟨lateNode,[rejoinedNode,revokedNode,policyNode agentId]⟩,[],[]⟩ := by
  have proved : ((secureServer (challengedNode agentId).disk).checkProof (answerFor agentId)).2 =
      .ok (activationOf agentId) := by decide +kernel
  have other : ¬Entry.Activates ⟨logIdAt 3,.normal agentRevocation⟩ := by
    rintro ⟨audited,_,_,normal,command⟩
    cases normal
    cases command
  have read : nextSvid rejoinedNode.disk (activationOf agentId).spiffeId
      (some (activationOf agentId).agentX25519Pubkey) 1700000060 = .ok lateSvid := by decide +kernel
  apply Run.cons (acceptedStep (challengedNode_eks agentId) proved)
  apply Run.cons (appliedStep other revocation_advances)
  apply Run.cons (activatedStep (advances_apply (by decide +kernel)))
  apply Run.cons (issuedStep read (advances_apply (by decide +kernel)))
  exact .nil _

/-- A proof accepted before the revocation takes the key back to joined and gets its certificate. -/
theorem agent_joins_after_revocation : Run ActivationStep ⟨⟨policyNode agentId,[]⟩,[],[]⟩ lateActivation
      ⟨⟨lateNode,[rejoinedNode,revokedNode,policyNode agentId]⟩,[],[]⟩ ∧
    EkRevoked revokedNode.disk (hex [1,2,3]) ∧ ¬EkRevoked lateNode.disk (hex [1,2,3]) := by
  have read : readRecord NodeEkRecord lateNode.disk .nodeEks (asBytes (hex [1,2,3])) =
      .ok (some ⟨hex [1,2,3],[1,2,3],[],agentId,1700000000,some 1700003600,.joined⟩) := by decide +kernel
  have kept : EkStored lateNode.disk (hex [1,2,3]) _ := readRecord_some.mp read
  refine ⟨lateActivation_run,revoke_stored revocation_advances rfl policyNode_registered,?_⟩
  rintro ⟨found,again,revoked⟩
  rw [again.unique kept] at revoked
  cases revoked

end FleetosControl
