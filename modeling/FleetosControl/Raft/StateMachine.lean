import FleetosControl.Lib.Trace
import FleetosControl.Reference

/-! Entry application, one batch for each entry, and snapshots: built from a view of the data and the
metadata that is read afterwards, installed, and looked up. -/
namespace FleetosControl
open Wire KeyValue Std

structure Node where
  disk : Disk
  version : UInt64

def boot (disk : Disk) : Node := ⟨disk,initialVersion disk⟩

@[simp] theorem boot_disk (disk : Disk) : (boot disk).disk = disk := rfl

@[simp] theorem boot_version (disk : Disk) : (boot disk).version = initialVersion disk := rfl

def lastAppliedKey : Bytes := asBytes "last_applied"

def lastMembershipKey : Bytes := asBytes "last_membership"

def snapshotMetaKey : Bytes := asBytes "snapshot_meta"

section
variable [FleetosCore] {left right disk : Disk} {before after node next : Node} {entry : Entry}
  {response : FleetosResponse} {writes : List Write} {kind : ChangeKind} {entries : List Entry} {cmd : FleetosCommand}
  {keyspace : Keyspace} {lastApplied : Option LogId} {stored : StoredMembership}

def commandAction : FleetosCommand → String
  | .createTenant .. => "CreateTenant"
  | .deleteTenant .. => "DeleteTenant"
  | .submitWorkloadSpec .. => "SubmitWorkloadSpec"
  | .submitCronWorkload .. => "SubmitCronWorkload"
  | .mintJoinToken .. => "MintJoinToken"
  | .consumeJoinToken .. => "ConsumeJoinToken"
  | .setPcrPolicy .. => "SetPcrPolicy"
  | .registerNode .. => "RegisterNode"
  | .evictNode .. => "EvictNode"
  | .pruneExpiredRevokedSvids .. => "PruneExpiredRevokedSvids"
  | .setNodeSchedulable .. => "SetNodeSchedulable"
  | .nodeHeartbeat .. => "NodeHeartbeat"
  | .issueDelegation .. => "IssueDelegation"
  | .revokeDelegation .. => "RevokeDelegation"
  | .upsertSagRule .. => "UpsertSagRule"
  | .deleteSagRule .. => "DeleteSagRule"
  | .allocateTenantBlock .. => "AllocateTenantBlock"
  | .allocateServiceAddress .. => "AllocateServiceAddress"
  | .storeSecret .. => "StoreSecret"
  | .grantSecretAccess .. => "GrantSecretAccess"
  | .revokeSecretAccess .. => "RevokeSecretAccess"
  | .recordOrdinalAssignment .. => "RecordOrdinalAssignment"
  | .commitPlacement .. => "CommitPlacement"
  | .removePlacement .. => "RemovePlacement"
  | .reassignPodId .. => "ReassignPodId"
  | .storeNodePool .. => "StoreNodePool"
  | .deleteNodePool .. => "DeleteNodePool"
  | .triggerCronWorkload .. => "TriggerCronWorkload"
  | .upsertWorkloadStatus .. => "UpsertWorkloadStatus"
  | .grantOperatorAccess .. => "GrantOperatorAccess"
  | .revokeOperatorAccess .. => "RevokeOperatorAccess"
  | .deleteWorkload .. => "DeleteWorkload"
  | .scaleWorkload .. => "ScaleWorkload"
  | .resizeWorkload .. => "ResizeWorkload"
  | .upsertVpaRecommendation .. => "UpsertVpaRecommendation"
  | .setTenantQuota .. => "SetTenantQuota"
  | .registerControlAddress .. => "RegisterControlAddress"
  | .upsertSvidVersion .. => "UpsertSvidVersion"
  | .registerNodeEk .. => "RegisterNodeEk"
  | .activateNodeEk .. => "ActivateNodeEk"
  | .setNodeTaints .. => "SetNodeTaints"
  | .removeNodeTaint .. => "RemoveNodeTaint"
  | .applyManifests .. => "ApplyManifests"
  | .revokeNodeEk .. => "RevokeNodeEk"

-- Commands proposed without a request context are attributed to the system.
def systemContext : AuditContext := ⟨"","system","",0⟩

def auditRecord (version : UInt64) : EntryPayload → Option AuditRecord
  | .normal audited =>
    let ctx := audited.audit.getD systemContext
    some ⟨version,ctx.requestId,ctx.actor,commandAction audited.cmd,ctx.target,ctx.timestampUnix⟩
  | .blank => none
  | .membership _ => none

variable [Formats]

def payloadWrites (disk : Disk) (entry : Entry) : Applied :=
  match entry.payload with
  | .blank => .ok ([],.sagUpdate)
  | .normal audited => applyCommand disk audited.cmd
  | .membership membership =>
    .ok ([put .raftState lastMembershipKey (⟨some entry.logId,membership⟩ : StoredMembership)],.clusterMembership)

def auditWrite (version : UInt64) (entry : Entry) : List Write :=
  ((auditRecord version entry.payload).map (put .auditLog (u64be version))).toList

structure Prepared where
  batch : List Write
  version : UInt64
  kind : ChangeKind

/-- Everything up to the commit. The counter has moved when this returns, the disk has not. -/
def prepareEntry (node : Node) (entry : Entry) : Except StorageError Prepared := do
  let (writes,kind) ← payloadWrites node.disk entry
  let version := node.version + 1
  pure ⟨writes ++ put .raftState lastAppliedKey entry.logId :: persistVersion version :: auditWrite version entry,
    version,kind⟩

def applyEntry (node : Node) (entry : Entry) : Except StorageError (Node × FleetosResponse) := do
  let prepared ← prepareEntry node entry
  pure (⟨commit node.disk prepared.batch,prepared.version⟩,⟨prepared.version⟩)

-- An error ends the call; the entries before it stay committed.
def apply (node : Node) : List Entry → Node × Except StorageError (List FleetosResponse)
  | [] => (node,.ok [])
  | entry::entries =>
    match applyEntry node entry with
    | .error e => (node,.error e)
    | .ok (next,response) => ((apply next entries).1,(apply next entries).2.map (response :: ·))

def appliedState (disk : Disk) : Except StorageError (Option LogId × StoredMembership) := do
  let lastApplied ← readRecord LogId disk .raftState lastAppliedKey
  let lastMembership ← readRecord StoredMembership disk .raftState lastMembershipKey
  pure (lastApplied,lastMembership.getD StoredMembership.default)

def raftStateAfter (entry : Entry) (contents : Contents) : Contents :=
  let contents := match entry.payload with
    | .membership membership =>
      contents.insert lastMembershipKey (toAllocvec (⟨some entry.logId,membership⟩ : StoredMembership))
    | _ => contents
  contents.insert lastAppliedKey (toAllocvec entry.logId)

def auditLogAfter (version : UInt64) (entry : Entry) (contents : Contents) : Contents :=
  match auditRecord version entry.payload with
  | some record => contents.insert (u64be version) (toAllocvec record)
  | none => contents

theorem payloadWrites_congr (same : SameApplication left right) (entry : Entry) :
    payloadWrites left entry = payloadWrites right entry := by
  unfold payloadWrites
  split
  · rfl
  · exact applyCommand_congr same _
  · rfl

/-- The counter moves by one, and one batch writes what the payload says with the version and the audit record. -/
structure EntryEffect (before : Node) (entry : Entry) (after : Node) (writes : List Write) : Prop where
  version : after.version = before.version + 1
  persisted : after.disk .version = (before.disk .version).insert versionKey (u64le (before.version + 1))
  auditLog : after.disk .auditLog = auditLogAfter (before.version + 1) entry (before.disk .auditLog)
  raftState : after.disk .raftState = raftStateAfter entry (before.disk .raftState)
  application : ∀ keyspace : Keyspace, keyspace.application = true →
    after.disk keyspace = commit before.disk writes keyspace
  frame : ∀ keyspace : Keyspace, keyspace.application = false → keyspace ≠ .version → keyspace ≠ .auditLog →
    keyspace ≠ .raftState → after.disk keyspace = before.disk keyspace

theorem applyEntry_ok (ok : applyEntry before entry = .ok (after,response)) :
    ∃ writes kind, payloadWrites before.disk entry = .ok (writes,kind) ∧
      after = ⟨commit before.disk (writes ++ put .raftState lastAppliedKey entry.logId ::
        persistVersion (before.version + 1) :: auditWrite (before.version + 1) entry),before.version + 1⟩ ∧
      response = ⟨before.version + 1⟩ := by
  obtain ⟨prepared,prepare,ok⟩ := bind_ok ok
  obtain ⟨⟨writes,kind⟩,payload,prepare⟩ := bind_ok prepare
  cases prepare
  cases ok
  exact ⟨writes,kind,payload,rfl,rfl⟩

theorem applyEntry_of_payload (node : Node) (entry : Entry)
    (payload : payloadWrites node.disk entry = .ok (writes,kind)) : ∃ after response,
      applyEntry node entry = .ok (after,response) := by
  simp [applyEntry,prepareEntry,payload,Bind.bind,Except.bind,Pure.pure,Except.pure]

theorem payload_outside (payload : payloadWrites disk entry = .ok (writes,kind)) (keyspace : Keyspace)
    (outside : keyspace.application = false) (other : keyspace ≠ .raftState) :
    commit disk writes keyspace = disk keyspace := by
  unfold payloadWrites at payload
  split at payload
  · cases payload
    rfl
  · apply applyCommand_frame payload
    intro touched
    rw [touches_application _ _ touched] at outside
    cases outside
  · cases payload
    exact commit_frame _ _ _ (by simp [other.symm])

theorem payload_raftState (payload : payloadWrites disk entry = .ok (writes,kind)) :
    (commit disk writes .raftState).insert lastAppliedKey (toAllocvec entry.logId) =
      raftStateAfter entry (disk .raftState) := by
  unfold payloadWrites at payload
  unfold raftStateAfter
  split at payload
  case h_1 blank =>
    cases payload
    simp [blank]
  case h_2 audited normal =>
    have same : commit disk writes .raftState = disk .raftState := by
      apply applyCommand_frame payload
      intro touched
      cases touches_application _ _ touched
    simp [normal,same]
  case h_3 membership changed =>
    cases payload
    simp [changed,put,perform,Write.on]

theorem bookkeeping_commit (disk : Disk) (entry : Entry) (version : UInt64) (keyspace : Keyspace) :
    commit disk (put .raftState lastAppliedKey entry.logId :: persistVersion version :: auditWrite version entry)
        keyspace =
      match keyspace with
      | .raftState => (disk .raftState).insert lastAppliedKey (toAllocvec entry.logId)
      | .version => (disk .version).insert versionKey (u64le version)
      | .auditLog => auditLogAfter version entry (disk .auditLog)
      | other => disk other := by
  cases recorded : auditRecord version entry.payload <;>
    cases keyspace <;>
    simp [auditWrite,auditLogAfter,recorded,put,persistVersion,perform,Write.on]

theorem applyEntry_effect (ok : applyEntry before entry = .ok (after,response)) :
    ∃ writes kind, payloadWrites before.disk entry = .ok (writes,kind) ∧
      response = ⟨before.version + 1⟩ ∧ EntryEffect before entry after writes := by
  obtain ⟨writes,kind,payload,rfl,rfl⟩ := applyEntry_ok ok
  have shape := fun keyspace => (congrFun (commit_append before.disk writes _) keyspace).trans
    (bookkeeping_commit (commit before.disk writes) entry (before.version + 1) keyspace)
  refine ⟨writes,kind,payload,rfl,rfl,?_,?_,?_,?_,?_⟩
  · refine (shape .version).trans ?_
    rw [payload_outside payload .version rfl (by decide)]
  · refine (shape .auditLog).trans ?_
    rw [payload_outside payload .auditLog rfl (by decide)]
  · exact (shape .raftState).trans (payload_raftState payload)
  · intro keyspace inside
    refine (shape keyspace).trans ?_
    cases keyspace <;> first | rfl | cases inside
  · intro keyspace outside version auditLog raftState
    refine (shape keyspace).trans ?_
    have same := payload_outside payload keyspace outside raftState
    split <;> first | contradiction | exact same

def Advances (before : Node) (entry : Entry) (after : Node) : Prop :=
  ∃ response, applyEntry before entry = .ok (after,response)

theorem advances_apply (ok : (applyEntry node entry).isOk = true) : Advances node entry (apply node [entry]).1 := by
  unfold apply
  cases outcome : applyEntry node entry with
  | error e => simp [outcome,Except.isOk,Except.toBool] at ok
  | ok result => exact ⟨result.2,outcome⟩

theorem apply_cons (applied : applyEntry node entry = .ok (next,response)) (entries : List Entry) :
    apply node (entry :: entries) = ((apply next entries).1,(apply next entries).2.map (response :: ·)) := by
  simp only [apply,applied]

theorem apply_cons_isOk : (apply node (entry :: entries)).2.isOk = true ↔
      ∃ next response, applyEntry node entry = .ok (next,response) ∧ (apply next entries).2.isOk = true := by
  cases outcome : applyEntry node entry with
  | error e => simp [apply,outcome,Except.isOk,Except.toBool]
  | ok result =>
    obtain ⟨next,response⟩ := result
    rw [apply_cons outcome]
    cases rest : (apply next entries).2 <;>
      simp [rest,Except.map,Except.isOk,Except.toBool]

theorem apply_run (ok : (apply node entries).2.isOk = true) :
    ∃ trace, Trace.Run Advances node trace (apply node entries).1 ∧ trace.map (·.label) = entries := by
  induction entries generalizing node with
  | nil => exact ⟨[],.nil _,rfl⟩
  | cons entry entries ih =>
    obtain ⟨next,response,applied,later⟩ := apply_cons_isOk.mp ok
    obtain ⟨trace,run,labels⟩ := ih later
    rw [apply_cons applied]
    exact ⟨⟨node,entry,next⟩::trace,.cons ⟨response,applied⟩ run,by rw [List.map_cons,labels]⟩

theorem apply_concat (ok : (apply node entries).2.isOk = true)
    (last : applyEntry (apply node entries).1 entry = .ok (next,response)) :
    (apply node (entries ++ [entry])).1 = next ∧ (apply node (entries ++ [entry])).2.isOk = true := by
  induction entries generalizing node with
  | nil =>
    have applied : applyEntry node entry = .ok (next,response) := last
    exact ⟨by rw [List.nil_append,apply_cons applied]; rfl,apply_cons_isOk.mpr ⟨next,response,applied,rfl⟩⟩
  | cons first entries ih =>
    obtain ⟨middle,answer,applied,later⟩ := apply_cons_isOk.mp ok
    rw [apply_cons applied] at last
    obtain ⟨reached,fine⟩ := ih later last
    rw [List.cons_append]
    exact ⟨by rw [apply_cons applied,reached],apply_cons_isOk.mpr ⟨middle,answer,applied,fine⟩⟩

theorem Advances.cases (advances : Advances before entry after) :
    (∃ audited writes kind, entry.payload = .normal audited ∧ applyCommand before.disk audited.cmd = .ok (writes,kind) ∧
      ∀ keyspace : Keyspace, keyspace.application = true → after.disk keyspace = commit before.disk writes keyspace) ∨
    ((∀ audited, entry.payload ≠ .normal audited) ∧ SameApplication after.disk before.disk) := by
  obtain ⟨response,ok⟩ := advances
  obtain ⟨writes,kind,payload,_,effect⟩ := applyEntry_effect ok
  unfold payloadWrites at payload
  split at payload
  case h_1 blank =>
    cases payload
    exact .inr ⟨by simp [blank],effect.application⟩
  case h_2 audited normal => exact .inl ⟨audited,writes,kind,normal,payload,effect.application⟩
  case h_3 membership changed =>
    cases payload
    refine .inr ⟨by simp [changed],fun keyspace inside => (effect.application keyspace inside).trans ?_⟩
    apply commit_frame
    intro write member named
    rw [mem_singleton.mp member] at named
    cases named
    cases inside

theorem Advances.applied (advances : Advances before entry after) (normal : entry.payload = .normal audited) :
    ∃ writes kind, applyCommand before.disk audited.cmd = .ok (writes,kind) ∧
      SameApplication after.disk (commit before.disk writes) := by
  rcases advances.cases with ⟨other,writes,kind,payload,ok,same⟩ | ⟨none,_⟩
  · cases payload.symm.trans normal
    exact ⟨writes,kind,ok,same⟩
  · exact absurd normal (none audited)

def AppliesCommand (before : Node) (cmd : FleetosCommand) (after : Node) : Prop :=
  ∃ entry audited, entry.payload = .normal audited ∧ audited.cmd = cmd ∧ Advances before entry after

theorem AppliesCommand.commits (applies : AppliesCommand before cmd after) :
    ∃ writes kind, applyCommand before.disk cmd = .ok (writes,kind) ∧
      SameApplication after.disk (commit before.disk writes) := by
  obtain ⟨entry,audited,normal,rfl,advances⟩ := applies
  exact advances.applied normal

theorem AppliesCommand.frame (applies : AppliesCommand before cmd after) (inside : keyspace.application = true)
    (untouched : keyspace ∉ cmd.touches) : after.disk keyspace = before.disk keyspace := by
  obtain ⟨writes,kind,ok,same⟩ := applies.commits
  exact (same keyspace inside).trans (applyCommand_frame ok keyspace untouched)

theorem Advances.frame (advances : Advances before entry after) (inside : keyspace.application = true)
    (untouched : ∀ audited, entry.payload = .normal audited → keyspace ∉ audited.cmd.touches) :
    after.disk keyspace = before.disk keyspace := by
  rcases advances.cases with ⟨audited,writes,kind,normal,ok,contents⟩ | ⟨_,same⟩
  · rw [contents keyspace inside]
    exact applyCommand_frame ok keyspace (untouched audited normal)
  · exact same keyspace inside

theorem Advances.outside (advances : Advances before entry after)
    (own : keyspace ∈ [Keyspace.nonces,.nonceClaims,.svidGrants,.pendingActivations]) :
    after.disk keyspace = before.disk keyspace := by
  obtain ⟨response,ok⟩ := advances
  obtain ⟨_,_,_,_,effect⟩ := applyEntry_effect ok
  simp only [mem_cons,not_mem_nil,or_false] at own
  rcases own with rfl | rfl | rfl | rfl <;>
    exact effect.frame _ rfl (by decide) (by decide) (by decide)

def membershipAfter (entry : Entry) (stored : StoredMembership) : StoredMembership :=
  match entry.payload with
  | .membership membership => ⟨some entry.logId,membership⟩
  | _ => stored

theorem appliedState_ok (ok : appliedState disk = .ok (lastApplied,stored)) :
    readRecord LogId disk .raftState lastAppliedKey = .ok lastApplied ∧
      ∃ found, readRecord StoredMembership disk .raftState lastMembershipKey = .ok found ∧
        found.getD StoredMembership.default = stored := by
  obtain ⟨applied,readApplied,ok⟩ := bind_ok ok
  obtain ⟨found,readMembership,ok⟩ := bind_ok ok
  cases ok
  exact ⟨readApplied,found,readMembership,rfl⟩

theorem appliedState_empty : appliedState Disk.empty = .ok (none,.default) := rfl

theorem appliedState_congr (same : left .raftState = right .raftState) : appliedState left = appliedState right := by
  simp only [appliedState,readRecord_congr same]

theorem applyEntry_appliedState (ok : applyEntry before entry = .ok (after,response))
    (known : appliedState before.disk = .ok (lastApplied,stored)) :
    appliedState after.disk = .ok (some entry.logId,membershipAfter entry stored) := by
  obtain ⟨_,_,_,_,effect⟩ := applyEntry_effect ok
  obtain ⟨_,found,readMembership,rfl⟩ := appliedState_ok known
  have distinct : lastAppliedKey ≠ lastMembershipKey := by decide
  have applied : readRecord LogId after.disk .raftState lastAppliedKey = .ok (some entry.logId) := by
    apply readRecord_of_lookup
    simp [effect.raftState,raftStateAfter]
  have membership : ∃ kept, readRecord StoredMembership after.disk .raftState lastMembershipKey = .ok kept ∧
      kept.getD .default = membershipAfter entry (found.getD .default) := by
    cases payload : entry.payload with
    | membership m =>
      refine ⟨some ⟨some entry.logId,m⟩,?_,by simp [membershipAfter,payload]⟩
      apply readRecord_of_lookup
      simp only [effect.raftState,raftStateAfter,payload]
      rw [ExtTreeMap.getElem?_insert]
      simp [distinct]
    | blank | normal =>
      refine ⟨found,?_,by simp [membershipAfter,payload]⟩
      rw [← readMembership]
      simp only [readRecord,effect.raftState,raftStateAfter,payload]
      rw [ExtTreeMap.getElem?_insert]
      simp [distinct]
  obtain ⟨kept,read,same⟩ := membership
  simp [appliedState,applied,read,same,Bind.bind,Except.bind,Pure.pure,Except.pure]

end

def collectKeyspacesFromView (view : Disk) : List (String × List (Bytes × Bytes)) :=
  snapshotKeyspaces.map fun keyspace => (keyspace.name,(view keyspace).toList)

def snapshotId : Option LogId → String
  | some logId => "snap-" ++ toString logId.leaderId.term ++ "-" ++ toString logId.index
  | none => "snap-initial"

inductive Builder where
  | start
  | viewed (view : Disk)
  | collected (data : Bytes)
  | appliedRead (data : Bytes) (lastApplied : Option LogId)
  | built (snapshot : Snapshot)

def snapshotDataKey : Bytes := u64be 0

-- Phase 1 of an install: every key of every snapshotted keyspace goes.
def clearWrites (disk : Disk) : List Write :=
  snapshotKeyspaces.flatMap fun keyspace => (disk keyspace).keys.map fun key => .remove keyspace key

-- Phase 2: the pairs of every keyspace the snapshot names, unknown names being skipped.
def restoreWrites (snapshot : ApplicationSnapshot) : List Write :=
  snapshot.keyspaces.flatMap fun named =>
    match snapshotKeyspace named.1 with
    | some keyspace => named.2.map fun pair => .insert keyspace pair.1 pair.2
    | none => []

def ApplicationSnapshot.restore (snapshot : ApplicationSnapshot) : Disk := commit Disk.empty (restoreWrites snapshot)

section
variable [FleetosCore] [Formats] {before after : Node} {info : SnapshotMeta} {disk : Disk}

def Builder.step (disk : Disk) : Builder → Except StorageError Builder
  | .start => .ok (.viewed disk)
  | .viewed view => .ok (.collected (toAllocvec (⟨collectKeyspacesFromView view⟩ : ApplicationSnapshot)))
  | .collected data => do
    let lastApplied ← readRecord LogId disk .raftState lastAppliedKey
    pure (.appliedRead data lastApplied)
  | .appliedRead data lastApplied => do
    let lastMembership ← readRecord StoredMembership disk .raftState lastMembershipKey
    pure (.built ⟨⟨lastApplied,lastMembership.getD StoredMembership.default,snapshotId lastApplied⟩,data⟩)
  | .built snapshot => .ok (.built snapshot)

def buildSnapshot (disk : Disk) : Except StorageError Snapshot := do
  let data := toAllocvec (⟨collectKeyspacesFromView disk⟩ : ApplicationSnapshot)
  let (lastApplied,lastMembership) ← appliedState disk
  pure ⟨⟨lastApplied,lastMembership,snapshotId lastApplied⟩,data⟩

def installBatch (disk : Disk) (snapshot : ApplicationSnapshot) (info : SnapshotMeta) (data : Bytes) : List Write :=
  clearWrites disk ++ restoreWrites snapshot ++
    [.insert .raftSnapshot snapshotDataKey data,put .raftState snapshotMetaKey info]

def installSnapshot (node : Node) (info : SnapshotMeta) (data : Bytes) : Except StorageError Node := do
  let appSnapshot ← serErr (fromBytes (α := ApplicationSnapshot) data)
  pure { node with disk := commit node.disk (installBatch node.disk appSnapshot info data) }

def getCurrentSnapshot (disk : Disk) : Except StorageError (Option Snapshot) := do
  match ← readRecord SnapshotMeta disk .raftState snapshotMetaKey with
  | none => pure none
  | some info =>
    match (disk .raftSnapshot)[snapshotDataKey]? with
    | some data => pure (some ⟨info,data⟩)
    | none => pure none

theorem clearWrites_keyspace (disk : Disk) (keyspace : Keyspace) :
    commit disk (clearWrites disk) keyspace = if keyspace ∈ snapshotKeyspaces then ∅ else disk keyspace := by
  unfold clearWrites
  rw [commit_tables _ _ snapshotKeyspaces_nodup _ (by simp)]
  split
  · exact commit_removes_keys disk keyspace
  · rfl

theorem restoreWrites_table (snapshot : ApplicationSnapshot) :
    ∀ write ∈ restoreWrites snapshot, write.table ∈ snapshotKeyspaces := by
  intro write member
  obtain ⟨named,_,inside⟩ := mem_flatMap.mp member
  split at inside
  case h_1 keyspace found =>
    obtain ⟨pair,_,rfl⟩ := mem_map.mp inside
    exact List.mem_of_find?_eq_some found
  case h_2 => simp at inside

theorem restoreWrites_collect (view : Disk) : restoreWrites ⟨collectKeyspacesFromView view⟩ =
      snapshotKeyspaces.flatMap fun keyspace =>
        (view keyspace).toList.map fun pair => .insert keyspace pair.1 pair.2 := by
  unfold restoreWrites collectKeyspacesFromView
  rw [List.flatMap_map,List.flatMap_def,List.flatMap_def]
  apply congrArg List.flatten
  apply List.map_congr_left
  intro keyspace member
  simp only [snapshotKeyspace_name keyspace member]

theorem restore_collect (view : Disk) (keyspace : Keyspace) (member : keyspace ∈ snapshotKeyspaces) :
    (ApplicationSnapshot.mk (collectKeyspacesFromView view)).restore keyspace = view keyspace := by
  have own : ∀ table, ∀ write ∈ ((view table).toList.map fun pair => Write.insert table pair.1 pair.2),
      write.table = table := by
    intro table write inside
    obtain ⟨pair,_,rfl⟩ := mem_map.mp inside
    rfl
  unfold ApplicationSnapshot.restore
  rw [restoreWrites_collect,commit_tables _ _ snapshotKeyspaces_nodup _ own,if_pos member,commit_inserts]
  exact insertMany_toList (view keyspace)

theorem buildSnapshot_eq_steps (disk : Disk) : (do
      let viewed ← Builder.start.step disk
      let collected ← viewed.step disk
      let appliedRead ← collected.step disk
      appliedRead.step disk) = (buildSnapshot disk).map Builder.built := by
  simp only [Builder.step,buildSnapshot,appliedState,Bind.bind,Except.bind,Pure.pure,Except.pure]
  cases readRecord LogId disk .raftState lastAppliedKey with
  | error e => rfl
  | ok lastApplied =>
    cases readRecord StoredMembership disk .raftState lastMembershipKey <;> rfl

/-- All an install does. The counter in memory is not touched. -/
structure InstallEffect (before : Node) (info : SnapshotMeta) (data : Bytes) (snapshot : ApplicationSnapshot)
    (after : Node) : Prop where
  version : after.version = before.version
  restored : ∀ keyspace ∈ snapshotKeyspaces, keyspace ≠ .raftState → after.disk keyspace = snapshot.restore keyspace
  raftState : after.disk .raftState = (snapshot.restore .raftState).insert snapshotMetaKey (toAllocvec info)
  raftSnapshot : after.disk .raftSnapshot = (before.disk .raftSnapshot).insert snapshotDataKey data
  frame : ∀ keyspace : Keyspace, keyspace ∉ snapshotKeyspaces → keyspace ≠ .raftSnapshot →
    after.disk keyspace = before.disk keyspace

theorem install_contents (disk : Disk) (snapshot : ApplicationSnapshot) (keyspace : Keyspace) :
    commit disk (clearWrites disk ++ restoreWrites snapshot) keyspace =
      if keyspace ∈ snapshotKeyspaces then snapshot.restore keyspace else disk keyspace := by
  rw [commit_append]
  split
  case isTrue member =>
    apply commit_congr
    rw [clearWrites_keyspace,if_pos member]
    rfl
  case isFalse absent =>
    have untouched : commit (commit disk (clearWrites disk)) (restoreWrites snapshot) keyspace =
        commit disk (clearWrites disk) keyspace := by
      apply commit_frame
      intro write member same
      exact absent (same ▸ restoreWrites_table snapshot write member)
    rw [untouched,clearWrites_keyspace,if_neg absent]

theorem installSnapshot_effect (ok : installSnapshot before info data = .ok after) :
    ∃ snapshot, fromBytes data = .ok snapshot ∧ InstallEffect before info data snapshot after := by
  obtain ⟨snapshot,decoded,ok⟩ := bind_ok ok
  cases ok
  have shape := fun keyspace => congrFun (commit_append before.disk (clearWrites before.disk ++ restoreWrites snapshot)
    [.insert .raftSnapshot snapshotDataKey data,put .raftState snapshotMetaKey info]) keyspace
  have untouched : ∀ keyspace : Keyspace, keyspace ≠ .raftSnapshot → keyspace ≠ .raftState →
      commit before.disk (installBatch before.disk snapshot info data) keyspace =
        if keyspace ∈ snapshotKeyspaces then snapshot.restore keyspace else before.disk keyspace := by
    intro keyspace noSnapshot noState
    refine (shape keyspace).trans ?_
    rw [commit_frame _ _ _ (by simp [noSnapshot.symm,noState.symm]),install_contents]
  refine ⟨snapshot,(serErr_eq_ok _ _).mp decoded,rfl,?_,?_,?_,?_⟩
  · intro keyspace member noState
    have noSnapshot : keyspace ≠ .raftSnapshot := by rintro rfl; revert member; decide
    exact (untouched keyspace noSnapshot noState).trans (if_pos member)
  · refine (shape .raftState).trans ?_
    have restored := (install_contents before.disk snapshot .raftState).trans (if_pos (by decide))
    simp [put,perform,Write.on,restored]
  · refine (shape .raftSnapshot).trans ?_
    have kept := (install_contents before.disk snapshot .raftSnapshot).trans (if_neg (by decide))
    simp [put,perform,Write.on,kept]
  · intro keyspace absent noSnapshot
    have noState : keyspace ≠ .raftState := by rintro rfl; exact absent (by decide)
    exact (untouched keyspace noSnapshot noState).trans (if_neg absent)

theorem buildSnapshot_ok (built : buildSnapshot disk = .ok snapshot) :
    appliedState disk = .ok (snapshot.info.lastLogId,snapshot.info.lastMembership) ∧
      snapshot.info.snapshotId = snapshotId snapshot.info.lastLogId ∧
      snapshot.data = toAllocvec (⟨collectKeyspacesFromView disk⟩ : ApplicationSnapshot) := by
  obtain ⟨⟨lastApplied,lastMembership⟩,state,built⟩ := bind_ok built
  cases built
  exact ⟨state,rfl,rfl⟩

theorem buildSnapshot_of_state (known : appliedState disk = .ok (lastApplied,stored)) :
    buildSnapshot disk = .ok ⟨⟨lastApplied,stored,snapshotId lastApplied⟩,
      toAllocvec (⟨collectKeyspacesFromView disk⟩ : ApplicationSnapshot)⟩ := by
  simp [buildSnapshot,known,Bind.bind,Except.bind,Pure.pure,Except.pure]

/-- The snapshotted keyspaces of the view replace the node's, the stored snapshot apart. -/
structure Transferred (before : Node) (info : SnapshotMeta) (view : Disk) (after : Node) : Prop where
  version : after.version = before.version
  contents : ∀ keyspace ∈ snapshotKeyspaces, keyspace ≠ .raftState → after.disk keyspace = view keyspace
  raftState : after.disk .raftState = (view .raftState).insert snapshotMetaKey (toAllocvec info)
  frame : ∀ keyspace : Keyspace, keyspace ∉ snapshotKeyspaces → keyspace ≠ .raftSnapshot →
    after.disk keyspace = before.disk keyspace

theorem installSnapshot_collected (before : Node) (info : SnapshotMeta) (view : Disk) :
    ∃ after, installSnapshot before info (toAllocvec (⟨collectKeyspacesFromView view⟩ : ApplicationSnapshot)) =
      .ok after ∧ Transferred before info view after := by
  have decoded : serErr (fromBytes (toAllocvec (⟨collectKeyspacesFromView view⟩ : ApplicationSnapshot))) =
      .ok (⟨collectKeyspacesFromView view⟩ : ApplicationSnapshot) := by simp
  obtain ⟨after,ok⟩ : ∃ after, installSnapshot before info
      (toAllocvec (⟨collectKeyspacesFromView view⟩ : ApplicationSnapshot)) = .ok after := by
    unfold installSnapshot
    rw [decoded]
    exact ⟨_,rfl⟩
  obtain ⟨snapshot,read,effect⟩ := installSnapshot_effect ok
  obtain rfl : ⟨collectKeyspacesFromView view⟩ = snapshot := by simpa using read
  refine ⟨after,ok,effect.version,?_,?_,effect.frame⟩
  · intro keyspace member state
    rw [effect.restored keyspace member state,restore_collect view keyspace member]
  · rw [effect.raftState,restore_collect view .raftState (by decide)]

theorem Transferred.appliedState (moved : Transferred before info view after) :
    FleetosControl.appliedState after.disk = FleetosControl.appliedState view := by
  have kept : ∀ key, key ≠ snapshotMetaKey → (after.disk .raftState)[key]? = (view .raftState)[key]? := by
    intro key other
    rw [moved.raftState,ExtTreeMap.getElem?_insert]
    simp [other.symm]
  simp only [FleetosControl.appliedState,readRecord,kept lastAppliedKey (by decide),kept lastMembershipKey (by decide)]

end

section
variable [FleetosCore] [Formats]

/-- The counter in memory is left open, so restarts are included. All else writes outside `raft_state`. -/
inductive Reachable : Disk → Prop where
  | fresh : Reachable Disk.empty
  | applied {before : Node} {after entry response} :
      Reachable before.disk → applyEntry before entry = .ok (after,response) → Reachable after.disk
  | installed {before : Node} {after view info} : Reachable before.disk → Reachable view →
      installSnapshot before info (toAllocvec (⟨collectKeyspacesFromView view⟩ : ApplicationSnapshot)) = .ok after →
      Reachable after.disk
  | besides {writes} : Reachable disk → (∀ write ∈ writes, write.table ≠ .raftState) → Reachable (commit disk writes)

theorem Reachable.appliedState (reachable : Reachable disk) :
    ∃ lastApplied stored, FleetosControl.appliedState disk = .ok (lastApplied,stored) := by
  induction reachable with
  | fresh => exact ⟨_,_,rfl⟩
  | applied _ ok ih =>
    obtain ⟨_,_,known⟩ := ih
    exact ⟨_,_,applyEntry_appliedState ok known⟩
  | @installed before after view info _ _ ok _ ih =>
    obtain ⟨_,_,known⟩ := ih
    obtain ⟨same,okSame,moved⟩ := installSnapshot_collected before info view
    obtain rfl : same = after := Except.ok.inj (okSame.symm.trans ok)
    exact ⟨_,_,moved.appliedState.trans known⟩
  | besides _ elsewhere ih =>
    obtain ⟨_,_,known⟩ := ih
    exact ⟨_,_,(appliedState_congr (commit_frame _ _ _ elsewhere)).trans known⟩

theorem snapshot_carries_contents {source : Disk} (reachable : Reachable source) (target : Node) :
    ∃ snapshot after, buildSnapshot source = .ok snapshot ∧
      installSnapshot target snapshot.info snapshot.data = .ok after ∧
      Transferred target snapshot.info source after := by
  obtain ⟨lastApplied,stored,known⟩ := reachable.appliedState
  obtain ⟨after,installed,moved⟩ := installSnapshot_collected target ⟨lastApplied,stored,snapshotId lastApplied⟩ source
  exact ⟨_,after,buildSnapshot_of_state known,installed,moved⟩

end

open Reference

def staleTarget : Node := boot (commit Disk.empty [.insert .tenants (asBytes "old") []])

theorem carried_over_stale_tenant : ∃ source snapshot after, Reachable source ∧
    buildSnapshot source = .ok snapshot ∧ installSnapshot staleTarget snapshot.info snapshot.data = .ok after ∧
    (staleTarget.disk .tenants)[asBytes "old"]? = some [] ∧ (after.disk .tenants)[asBytes "old"]? = none ∧
    (after.disk .tenantQuotas)[asBytes "acme"]? = some (toAllocvec (⟨"acme",4000,8,2⟩ : TenantQuotaRecord)) ∧
    Transferred staleTarget snapshot.info source after := by
  have observed : (do
      let (one,_) ← applyEntry (boot Disk.empty) (commandAt 1 (.setTenantQuota ⟨"acme",4000,8,2⟩))
      pure [(one.disk .tenants)[asBytes "old"]?,(one.disk .tenantQuotas)[asBytes "acme"]?]) =
      Except.ok [none,some (toAllocvec (⟨"acme",4000,8,2⟩ : TenantQuotaRecord))] := by decide
  obtain ⟨⟨one,_⟩,applied,observed⟩ := bind_ok observed
  have values := Except.ok.inj observed
  simp only [List.cons.injEq,and_true] at values
  have reachable : Reachable one.disk := .applied .fresh applied
  obtain ⟨snapshot,after,built,installed,moved⟩ := snapshot_carries_contents reachable staleTarget
  refine ⟨one.disk,snapshot,after,reachable,built,installed,by decide,?_,?_,moved⟩
  · rw [moved.contents .tenants (by decide) (by decide)]
    exact values.1
  · rw [moved.contents .tenantQuotas (by decide) (by decide)]
    exact values.2

end FleetosControl
