import FleetosControl.Raft.StateMachine

/-! No accepted request halts the replicas. What the commands decode is decodable in every state,
and an identity they parse was parsed before. -/
namespace FleetosControl
open Wire KeyValue

section
variable [FleetosCore] [Formats] {disk : Disk} {encryptAtRest : Bytes → Except String Bytes} {server : AdminServer}
  {peer : Peer} {requestId : String} {audited : AuditedCommand} {req : EvictNodeRequest}
  {guard : SpiffeId → AdminServer.Drain} {commands : List AuditedCommand}

def Decodes (α : Type) [Postcard α] (bytes : Bytes) : Prop := ∃ value : α, fromBytes bytes = .ok value

@[simp] theorem decodes_toAllocvec {α : Type} [Postcard α] (value : α) : Decodes α (toAllocvec value) := ⟨value,by simp⟩

def Typed (keyspace : Keyspace) (key bytes : Bytes) : Prop :=
  match keyspace with
  | .nodes => Decodes NodeRecord bytes
  | .nodeEks => Decodes NodeEkRecord bytes
  | .nodeTaints => Decodes (List NodeTaint) bytes
  | .secrets => ∀ secret, key = aclKey secret → Decodes SecretAcl bytes
  | _ => True

def Sound (writes : List Write) : Prop := ∀ write ∈ writes, write.Keeps Typed

@[simp] theorem sound_nil : Sound [] := by simp [Sound]

@[simp] theorem sound_cons (write : Write) (writes : List Write) :
    Sound (write::writes) ↔ write.Keeps Typed ∧ Sound writes := by
  simp [Sound]

@[simp] theorem sound_append (first second : List Write) : Sound (first ++ second) ↔ Sound first ∧ Sound second := by
  simp [Sound,or_imp,forall_and]

theorem sound_flatMap {α : Type} (items : List α) (writes : α → List Write) (each : ∀ item, Sound (writes item)) :
    Sound (items.flatMap writes) := by
  intro write member
  obtain ⟨item,_,inside⟩ := mem_flatMap.mp member
  exact each item write inside

@[simp] theorem keeps_remove (keyspace : Keyspace) (key : Bytes) : (Write.remove keyspace key : Write).Keeps Typed :=
  trivial

theorem sound_removes {α : Type} (items : List α) (keyspace : Keyspace) (key : α → Bytes) :
    Sound (items.map fun item => .remove keyspace (key item)) := by
  intro write member
  obtain ⟨item,_,rfl⟩ := mem_map.mp member
  trivial

def Applicable (disk : Disk) (cmd : FleetosCommand) : Prop :=
  ∃ writes kind, applyCommand disk cmd = .ok (writes,kind) ∧ Sound writes

theorem readRecord_decodes {α : Type} [Postcard α]
    (typed : ∀ bytes, (disk keyspace)[key]? = some bytes → Decodes α bytes) :
    ∃ found, readRecord α disk keyspace key = .ok found := by
  unfold readRecord
  split
  case h_1 bytes stored =>
    obtain ⟨value,decoded⟩ := typed bytes stored
    exact ⟨some value,by simp [decoded,serErr,Except.mapError,Except.map]⟩
  case h_2 => exact ⟨none,rfl⟩

theorem setNodeTaints_sound (nodeId : String) (taints : List NodeTaint) : Sound (setNodeTaints nodeId taints) := by
  unfold setNodeTaints
  split <;> simp [put,Write.Keeps,Typed]

theorem revokeDelegationsOf_sound (disk : Disk) (node : SpiffeId) : Sound (revokeDelegationsOf disk node) := by
  apply sound_flatMap
  intro entry
  split <;> simp [Write.Keeps,Typed]

section
variable {disk : Disk} (typed : Every Typed disk)
include typed

theorem updateNodeEk_applies (fingerprint : String) (change : NodeEkRecord → NodeEkRecord) :
    ∃ writes kind, updateNodeEk disk fingerprint change = .ok (writes,kind) ∧ Sound writes := by
  obtain ⟨found,read⟩ := readRecord_decodes (typed .nodeEks (asBytes fingerprint))
  unfold updateNodeEk
  rw [read]
  cases found with
  | none => exact ⟨_,_,rfl,by simp⟩
  | some record => exact ⟨_,_,rfl,by simp [put,Write.Keeps,Typed]⟩

theorem removeNodeTaint_applies (nodeId key effect : String) :
    ∃ writes kind, removeNodeTaint disk nodeId key effect = .ok (writes,kind) ∧ Sound writes := by
  obtain ⟨found,read⟩ := readRecord_decodes (typed .nodeTaints (asBytes nodeId))
  unfold removeNodeTaint
  rw [read]
  cases found with
  | none => exact ⟨_,_,rfl,by simp⟩
  | some taints =>
    simp only [Bind.bind,Except.bind]
    split
    · exact ⟨_,_,rfl,by simp⟩
    · exact ⟨_,_,rfl,setNodeTaints_sound _ _⟩

theorem setNodeSchedulable_applies (nodeId : String) (schedulable : Bool) :
    ∃ writes kind, setNodeSchedulable disk nodeId schedulable = .ok (writes,kind) ∧ Sound writes := by
  obtain ⟨found,read⟩ := readRecord_decodes (typed .nodes (asBytes nodeId))
  unfold setNodeSchedulable
  rw [read]
  cases found <;> exact ⟨_,_,rfl,by simp [put,Write.Keeps,Typed]⟩

theorem nodeHeartbeat_applies (nodeId : String) (lastHeartbeat : Int64) :
    ∃ writes kind, nodeHeartbeat disk nodeId lastHeartbeat = .ok (writes,kind) ∧ Sound writes := by
  obtain ⟨found,read⟩ := readRecord_decodes (typed .nodes (asBytes nodeId))
  unfold nodeHeartbeat
  rw [read]
  cases found with
  | none => exact ⟨_,_,rfl,by simp⟩
  | some record => exact ⟨_,_,rfl,by simp [put,Write.Keeps,Typed]⟩

theorem evictNode_applicable (parsed : parse nodeId = .ok node) (expires : Int64) :
    Applicable disk (.evictNode nodeId expires) := by
  obtain ⟨found,read⟩ := readRecord_decodes (typed .nodes (asBytes nodeId))
  have accepted : parseSpiffe nodeId = .ok node := by simp [parseSpiffe,parsed,Except.mapError]
  unfold Applicable applyCommand evictNode
  simp only [accepted,read,Bind.bind,Except.bind]
  cases found <;>
    exact ⟨_,_,rfl,by simp [put,Write.Keeps,Typed,revokeDelegationsOf_sound,sound_removes]⟩

theorem updateSecretAcl_applies {spiffeId id} (parsed : parse spiffeId = .ok id) (key : String)
    (change : SecretAcl → SpiffeId → SecretAcl) :
    ∃ writes kind, updateSecretAcl disk key spiffeId change = .ok (writes,kind) ∧ Sound writes := by
  obtain ⟨found,read⟩ := readRecord_decodes fun bytes stored => typed .secrets (aclKey key) bytes stored key rfl
  have accepted : parseSpiffe spiffeId = .ok id := by simp [parseSpiffe,parsed,Except.mapError]
  unfold updateSecretAcl
  simp only [accepted,read,Bind.bind,Except.bind]
  exact ⟨_,_,rfl,by simp [put,Write.Keeps,Typed]⟩

end

theorem secretKey_ne_aclKey (name secret : String) : asBytes ("secret:" ++ name) ≠ aclKey secret := by
  intro same
  rw [aclKey,asBytes_append,asBytes_append] at same
  have secretHead : (asBytes "secret:" ++ asBytes name).head? = some 115 := rfl
  have aclHead : (asBytes "acl:" ++ asBytes secret).head? = some 97 := rfl
  rw [same,aclHead] at secretHead
  cases secretHead

def FleetosCommand.Unchecked : FleetosCommand → Prop
  | .storeSecret .. | .grantSecretAccess .. | .revokeSecretAccess .. | .evictNode .. | .applyManifests ..
  | .revokeDelegation .. => False
  | _ => True

theorem unchecked_applicable (typed : Every Typed disk) (cmd : FleetosCommand) (unchecked : cmd.Unchecked) :
    Applicable disk cmd := by
  cases cmd
  case activateNodeEk => exact updateNodeEk_applies typed _ _
  case revokeNodeEk => exact updateNodeEk_applies typed _ _
  case setNodeTaints => exact ⟨_,_,rfl,setNodeTaints_sound _ _⟩
  case removeNodeTaint => exact removeNodeTaint_applies typed _ _ _
  case setNodeSchedulable => exact setNodeSchedulable_applies typed _ _
  case nodeHeartbeat => exact nodeHeartbeat_applies typed _ _
  case deleteWorkload =>
    refine ⟨_,_,rfl,?_⟩
    simp only [deleteWorkload,sound_cons,keeps_remove,true_and]
    exact sound_flatMap _ _ (fun _ => by simp [freePlacement,put,Write.Keeps,Typed])
  case scaleWorkload =>
    refine ⟨_,_,rfl,?_⟩
    simp only [scaleWorkload,sound_cons]
    exact ⟨trivial,sound_flatMap _ _ (fun _ => by simp [freePlacement,put,Write.Keeps,Typed])⟩
  case pruneExpiredRevokedSvids => exact ⟨_,_,rfl,sound_removes _ _ _⟩
  case reassignPodId =>
    refine ⟨_,_,rfl,?_⟩
    unfold reassignPodId
    simp only
    split <;> simp [put,Write.Keeps,Typed]
  case storeSecret | grantSecretAccess | revokeSecretAccess | evictNode | applyManifests | revokeDelegation =>
    exact unchecked.elim
  all_goals exact ⟨_,_,rfl,by simp [put,upsertWorkloadStatus,Write.Keeps,Typed]⟩

theorem parseArgument_ok {text field id} (ok : parseArgument text field = .ok id) :
    parse text = .ok id := mapError_ok.mp ok

theorem prepareSecret_ok (ok : prepareSecret encryptAtRest key plaintext authorized = .ok prepared) :
    ∃ acl : SecretAcl, prepared.2 = toAllocvec acl := by
  obtain ⟨envelope,_,ok⟩ := bind_ok ok
  cases ok
  exact ⟨_,rfl⟩

theorem storeSecret_proposes {req} (ok : server.storeSecret peer requestId encryptAtRest req = .ok audited) :
    ∃ record target, ∃ acl : SecretAcl, audited.cmd = .storeSecret record target ∧ record.aclBytes = toAllocvec acl := by
  obtain ⟨_,_,ok⟩ := bind_ok ok
  obtain ⟨_,_,ok⟩ := bind_ok ok
  obtain ⟨_,_,ok⟩ := bind_ok ok
  split at ok
  · cases ok
  split at ok
  · cases ok
  split at ok
  · cases ok
  obtain ⟨authorized,_,ok⟩ := bind_ok ok
  obtain ⟨prepared,sealed,ok⟩ := bind_ok ok
  cases ok
  obtain ⟨acl,encoded⟩ := prepareSecret_ok (mapError_ok.mp sealed)
  exact ⟨_,_,acl,rfl,encoded⟩

theorem changeSecretAccess_proposes {command : String → String → String → FleetosCommand} {req}
    (ok : AdminServer.changeSecretAccess command server peer requestId req = .ok audited) :
    ∃ id, parse req.spiffeId = .ok id ∧ audited.cmd = command req.tenantId req.key req.spiffeId := by
  obtain ⟨_,_,ok⟩ := bind_ok ok
  obtain ⟨_,_,ok⟩ := bind_ok ok
  obtain ⟨_,_,ok⟩ := bind_ok ok
  split at ok
  · cases ok
  obtain ⟨id,parsed,ok⟩ := bind_ok ok
  split at ok
  · cases ok
  · cases ok
    exact ⟨id,parseArgument_ok parsed,rfl⟩

theorem evictNode_cases (ok : server.evictNode peer requestId guard req = .ok commands) (member : audited ∈ commands) :
    ∃ node, parse req.nodeSvid = .ok node ∧
      (((req.force = true ∨ guard node = .allAllowed) ∧ ∃ expires, audited.cmd = .evictNode req.nodeSvid expires) ∨
        audited.cmd = .setNodeSchedulable req.nodeSvid false ∨
        ∃ placement : Placement, audited.cmd = .removePlacement placement.podId ∨
          audited.cmd = .recordOrdinalAssignment (freedOrdinal placement)) := by
  obtain ⟨_,_,ok⟩ := bind_ok ok
  obtain ⟨_,_,ok⟩ := bind_ok ok
  obtain ⟨node,parsed,ok⟩ := bind_ok ok
  refine ⟨node,parseArgument_ok parsed,?_⟩
  split at ok
  case h_1 whole =>
    cases ok
    rw [mem_singleton.mp member]
    refine .inl ⟨?_,_,rfl⟩
    split at whole
    case isTrue forced => exact .inl forced
    case isFalse => exact .inr whole
  case h_2 =>
    cases ok
    right
    rcases mem_cons.mp member with rfl | drained
    · exact .inl rfl
    · obtain ⟨placement,_,inside⟩ := mem_flatMap.mp drained
      simp only [mem_cons,not_mem_nil,or_false] at inside
      rcases inside with rfl | rfl
      · exact .inr ⟨placement,.inl rfl⟩
      · exact .inr ⟨placement,.inr rfl⟩

theorem evictNode_proposes (ok : server.evictNode peer requestId guard req = .ok commands) (audited : AuditedCommand)
    (member : audited ∈ commands) :
    audited.cmd.Unchecked ∨ ∃ node expires, parse req.nodeSvid = .ok node ∧
      audited.cmd = .evictNode req.nodeSvid expires := by
  obtain ⟨node,parsed,⟨_,expires,eviction⟩ | cordon | ⟨placement,removal | freed⟩⟩ := evictNode_cases ok member
  · exact .inr ⟨node,expires,parsed,eviction⟩
  · exact .inl (by rw [cordon]; trivial)
  · exact .inl (by rw [removal]; trivial)
  · exact .inl (by rw [freed]; trivial)

section
variable [Merges] {audited : AuditedCommand} {disk : Disk}

/-- A handler may have read any earlier state. Where no check is needed the payload is left open. -/
inductive Proposed : AuditedCommand → Prop where
  | storeSecret {server : AdminServer} {peer requestId} {encryptAtRest : Bytes → Except String Bytes} {req audited} :
      server.storeSecret peer requestId encryptAtRest req = .ok audited → Proposed audited
  | grantSecretAccess {server : AdminServer} {peer requestId req audited} :
      server.grantSecretAccess peer requestId req = .ok audited → Proposed audited
  | revokeSecretAccess {server : AdminServer} {peer requestId req audited} :
      server.revokeSecretAccess peer requestId req = .ok audited → Proposed audited
  | evictNode {server : AdminServer} {peer requestId} {guard : SpiffeId → AdminServer.Drain} {req commands audited} :
      server.evictNode peer requestId guard req = .ok commands → audited ∈ commands → Proposed audited
  | apply {server : AdminServer} {peer requestId req response audited} :
      server.apply peer requestId req = .ok response → response.proposal = some audited → Proposed audited
  | nodeController {nodeTtlSecs : UInt64} {now : Int64} {nodeId audited} :
      audited ∈ NodeController.evictNode nodeTtlSecs now nodeId → Proposed audited
  | unchecked {audited : AuditedCommand} : audited.cmd.Unchecked → Proposed audited

def ManifestUpdate.Targeted (update : ManifestUpdate) : Prop :=
  ∃ manifest : Manifest, ∃ keyspace, manifest.target = some (keyspace,update.targetKeyspace,update.targetKey)

theorem processManifest_targets (storage : Disk) (manifest : Manifest) :
    ∀ update ∈ (processManifest storage manifest).2, update.Targeted := by
  intro update made
  unfold processManifest at made
  split at made
  · cases made
  case h_2 keyspace targetKeyspace targetKey target =>
    split at made
    · cases made
      exact ⟨manifest,keyspace,target⟩
    · cases made
    · cases made

theorem addManifest_targets (server : AdminServer) (peer : Peer) (batch : ApplyBatch) (manifest : Manifest)
    (targets : ∀ update ∈ batch.updates, update.Targeted) :
    ∀ update ∈ (server.addManifest peer batch manifest).updates, update.Targeted := by
  intro update member
  unfold AdminServer.addManifest at member
  split at member
  · exact targets update member
  split at member
  · exact targets update member
  · rcases mem_append.mp member with earlier | made
    · exact targets update earlier
    · exact processManifest_targets _ _ update (Option.mem_toList.mp made)

theorem addManifests_targets (server : AdminServer) (peer : Peer) (manifests : List Manifest)
    (batch : ApplyBatch) (targets : ∀ update ∈ batch.updates, update.Targeted) :
    ∀ update ∈ (manifests.foldl (server.addManifest peer) batch).updates, update.Targeted := by
  induction manifests generalizing batch with
  | nil => exact targets
  | cons manifest manifests ih => exact ih _ (addManifest_targets server peer batch manifest targets)

theorem apply_proposes {server : AdminServer} {peer requestId req response}
    (ok : server.apply peer requestId req = .ok response) (proposal : response.proposal = some audited) :
    ∃ updates, audited.cmd = .applyManifests updates ∧ ∀ update ∈ updates, update.Targeted := by
  obtain ⟨_,_,ok⟩ := bind_ok ok
  split at ok
  · cases ok
  case h_2 manifests listed =>
    simp only at ok
    split at ok
    · cases ok
      cases proposal
    · cases ok
      cases proposal
      exact ⟨_,rfl,addManifests_targets server peer manifests _ (by simp)⟩

/-- Nothing revokes a single delegation, and manifests are of known kinds. -/
def FleetosCommand.Proposable : FleetosCommand → Prop
  | .revokeDelegation .. => False
  | .applyManifests updates => ∀ update ∈ updates, update.Targeted
  | _ => True

theorem unchecked_proposable {cmd : FleetosCommand} (unchecked : cmd.Unchecked) : cmd.Proposable := by
  cases cmd
  case revokeDelegation | applyManifests => exact unchecked.elim
  all_goals trivial

theorem proposed_proposable (proposed : Proposed audited) : audited.cmd.Proposable := by
  cases proposed with
  | storeSecret ok =>
    obtain ⟨_,_,_,shape,_⟩ := storeSecret_proposes ok
    rw [shape]
    trivial
  | grantSecretAccess ok | revokeSecretAccess ok =>
    obtain ⟨_,_,shape⟩ := changeSecretAccess_proposes ok
    rw [shape]
    trivial
  | evictNode ok member =>
    rcases evictNode_proposes ok _ member with unchecked | ⟨_,_,_,shape⟩
    · exact unchecked_proposable unchecked
    · rw [shape]
      trivial
  | apply ok proposal =>
    obtain ⟨updates,shape,targets⟩ := apply_proposes ok proposal
    rw [shape]
    exact targets
  | nodeController member =>
    rcases mem_cons.mp member with rfl | last
    · trivial
    · rw [mem_singleton.mp last]
      trivial
  | unchecked unchecked => exact unchecked_proposable unchecked

theorem targeted_keyspace {update : ManifestUpdate} (targeted : update.Targeted)
    (named : manifestKeyspace update.targetKeyspace = some keyspace) :
    keyspace ∈ [Keyspace.workloads,.tenants,.sagRules,.secrets,.nodePools] := by
  obtain ⟨manifest,stored,target⟩ := targeted
  obtain ⟨targetKeyspace,targetKey,newRecordBytes⟩ := update
  cases targets_of_target target <;> cases named <;> simp

theorem applyManifests_table {updates} (targeted : ∀ update ∈ updates, update.Targeted)
    (member : write ∈ applyManifests updates) :
    write.table ∈ [Keyspace.workloads,.tenants,.sagRules,.secrets,.nodePools] := by
  obtain ⟨update,inside,made⟩ := mem_filterMap.mp member
  obtain ⟨keyspace,named,rfl⟩ := map_eq_some_iff.mp made
  exact targeted_keyspace (targeted update inside) named

theorem targeted_keeps (update : ManifestUpdate) (targeted : update.Targeted) (keyspace : Keyspace)
    (named : manifestKeyspace update.targetKeyspace = some keyspace) :
    Typed keyspace update.targetKey update.newRecordBytes := by
  obtain ⟨manifest,stored,target⟩ := targeted
  obtain ⟨targetKeyspace,targetKey,newRecordBytes⟩ := update
  cases targets_of_target target with
  | secret _ =>
    cases named
    exact fun secret same => (secretKey_ne_aclKey _ _ same).elim
  | workload _ | tenant _ | sagRule _ | nodePool _ =>
    cases named
    trivial

theorem proposed_applicable (typed : Every Typed disk) (proposed : Proposed audited) : Applicable disk audited.cmd := by
  cases proposed with
  | storeSecret ok =>
    obtain ⟨record,target,acl,shape,encoded⟩ := storeSecret_proposes ok
    rw [shape]
    refine ⟨_,_,rfl,?_⟩
    simp only [sound_cons,sound_nil,and_true]
    exact ⟨fun secret same => (secretKey_ne_aclKey _ _ same).elim,fun _ _ => by simp [encoded]⟩
  | @grantSecretAccess _ _ _ req _ ok =>
    obtain ⟨id,parsed,shape⟩ := changeSecretAccess_proposes ok
    rw [shape]
    exact updateSecretAcl_applies typed parsed req.key fun acl spiffe => acl.grant req.key spiffe
  | @revokeSecretAccess _ _ _ req _ ok =>
    obtain ⟨id,parsed,shape⟩ := changeSecretAccess_proposes ok
    rw [shape]
    exact updateSecretAcl_applies typed parsed req.key fun acl spiffe => acl.revoke req.key spiffe
  | evictNode ok member =>
    rcases evictNode_proposes ok _ member with unchecked | ⟨node,expires,parsed,shape⟩
    · exact unchecked_applicable typed _ unchecked
    · rw [shape]
      exact evictNode_applicable typed parsed expires
  | apply ok proposal =>
    obtain ⟨updates,shape,targets⟩ := apply_proposes ok proposal
    rw [shape]
    refine ⟨_,_,rfl,?_⟩
    intro write member
    obtain ⟨update,inside,made⟩ := mem_filterMap.mp member
    obtain ⟨keyspace,named,rfl⟩ := map_eq_some_iff.mp made
    exact targeted_keeps update (targets update inside) keyspace named
  | @nodeController nodeTtlSecs now nodeId _ member =>
    rcases mem_cons.mp member with rfl | last
    · exact evictNode_applicable typed (parse_display nodeId) _
    · rw [mem_singleton.mp last]
      exact unchecked_applicable typed _ trivial
  | unchecked unchecked => exact unchecked_applicable typed _ unchecked

def Entry.Accepted (entry : Entry) : Prop := ∀ audited, entry.payload = .normal audited → Proposed audited

inductive Served : Disk → Prop where
  | fresh : Served Disk.empty
  | applied {before : Node} {after} {entry : Entry} {response} :
      Served before.disk → entry.Accepted → applyEntry before entry = .ok (after,response) → Served after.disk
  | installed {before : Node} {after view info} : Served before.disk → Served view →
      installSnapshot before info (toAllocvec (⟨collectKeyspacesFromView view⟩ : ApplicationSnapshot)) = .ok after →
      Served after.disk

theorem accepted_applies {node : Node} (typed : Every Typed node.disk) {entry : Entry} (accepted : entry.Accepted) :
    ∃ after response, applyEntry node entry = .ok (after,response) ∧ Every Typed after.disk := by
  obtain ⟨writes,kind,payload,sound⟩ : ∃ writes kind, payloadWrites node.disk entry = .ok (writes,kind) ∧
      Sound writes := by
    unfold payloadWrites
    split
    case h_1 => exact ⟨_,_,rfl,by simp⟩
    case h_2 audited normal => exact proposed_applicable typed (accepted audited normal)
    case h_3 => exact ⟨_,_,rfl,by simp [put,Write.Keeps,Typed]⟩
  obtain ⟨after,response,ok⟩ := applyEntry_of_payload node entry payload
  refine ⟨after,response,ok,?_⟩
  obtain ⟨writes',kind',same,rfl,_⟩ := applyEntry_ok ok
  cases payload.symm.trans same
  apply commit_every typed
  -- the log id, the version and the audit record go to keyspaces that no command decodes
  have audit : Sound (auditWrite (node.version + 1) entry) := by
    unfold auditWrite
    cases auditRecord (node.version + 1) entry.payload <;> simp [put,Write.Keeps,Typed]
  change Sound _
  simp [sound,audit,put,persistVersion,Write.Keeps,Typed]

theorem Served.typed (served : Served disk) : Every Typed disk := by
  induction served with
  | fresh => exact every_empty _
  | applied _ accepted ok ih =>
    obtain ⟨_,_,same,typed⟩ := accepted_applies ih accepted
    cases ok.symm.trans same
    exact typed
  | @installed before after view info _ _ ok own sent =>
    obtain ⟨same,okSame,moved⟩ := installSnapshot_collected before info view
    obtain rfl : same = after := Except.ok.inj (okSame.symm.trans ok)
    intro keyspace key bytes found
    unfold Typed
    split
    case h_1 => exact sent .nodes key bytes (moved.contents .nodes (by decide) (by decide) ▸ found)
    case h_2 => exact sent .nodeEks key bytes (moved.contents .nodeEks (by decide) (by decide) ▸ found)
    case h_3 => exact sent .nodeTaints key bytes (moved.contents .nodeTaints (by decide) (by decide) ▸ found)
    case h_4 => exact sent .secrets key bytes (moved.contents .secrets (by decide) (by decide) ▸ found)
    case h_5 => trivial

/-- However many accepted entries are applied, in whatever state they find the node, none fails. -/
theorem accepted_entries_apply {node : Node} (served : Served node.disk) (entries : List Entry)
    (accepted : ∀ entry ∈ entries, entry.Accepted) : ∃ responses, (apply node entries).2 = .ok responses := by
  have typed := served.typed
  clear served
  induction entries generalizing node with
  | nil => exact ⟨[],rfl⟩
  | cons entry entries ih =>
    obtain ⟨after,response,ok,kept⟩ := accepted_applies typed (accepted entry mem_cons_self)
    obtain ⟨responses,rest⟩ := ih (fun later member => accepted later (mem_cons_of_mem _ member)) kept
    exact ⟨response::responses,by simp [apply,ok,rest,Except.map]⟩

end

end

open Reference

namespace NoMessages

scoped instance merges : Merges where
  ManifestWorkloadSpec := Empty
  ManifestSagRuleSpec := Empty
  ManifestNodePoolSpec := Empty
  mergeWorkload spec := nomatch spec
  mergeSagRule spec := nomatch spec
  mergeNodePool spec := nomatch spec

end NoMessages

open NoMessages

theorem secret_requests_apply : ∃ stored granted, (adminServer Disk.empty).storeSecret fleetctlProxy "req-1" .ok
      ⟨"acme","db-password",[1],["spiffe://data.example.internal/ns/acme/sa/api"]⟩ = .ok stored ∧
    (adminServer (commit Disk.empty [.insert .secrets (asBytes "secret:db-password") [1]])).grantSecretAccess
      fleetctlProxy "req-2" ⟨"acme","db-password","spiffe://data.example.internal/ns/acme/sa/web"⟩ = .ok granted ∧
    ∃ responses, (apply (boot Disk.empty) [⟨logIdAt 1,.normal stored⟩,⟨logIdAt 2,.normal granted⟩]).2 =
      .ok responses := by
  obtain ⟨stored,store⟩ : ∃ stored, (adminServer Disk.empty).storeSecret fleetctlProxy "req-1" .ok
      ⟨"acme","db-password",[1],["spiffe://data.example.internal/ns/acme/sa/api"]⟩ = .ok stored := ⟨_,rfl⟩
  obtain ⟨granted,grant⟩ : ∃ granted,
      (adminServer (commit Disk.empty [.insert .secrets (asBytes "secret:db-password") [1]])).grantSecretAccess
        fleetctlProxy "req-2" ⟨"acme","db-password","spiffe://data.example.internal/ns/acme/sa/web"⟩ = .ok granted :=
    ⟨_,rfl⟩
  refine ⟨stored,granted,store,grant,accepted_entries_apply .fresh _ ?_⟩
  intro entry member audited normal
  simp only [mem_cons,not_mem_nil,or_false] at member
  rcases member with rfl | rfl
  · cases normal
    exact .storeSecret store
  · cases normal
    exact .grantSecretAccess grant

end FleetosControl
