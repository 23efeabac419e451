import FleetosControl.Admin.SagRules
import FleetosControl.DummyIp.Allocations
import FleetosControl.Watch.Snapshot

/-! Whether the streams follow the committed state: the last payload that went out is what the
builder makes of the committed contents. -/
namespace FleetosControl
open Wire KeyValue Trace Latest

def streamKeyspaces : List Keyspace := [.sagRules,.revokedDelegations,.revokedSvids,.placements,.workloads,.dummyIps]

theorem latest_kept {α : Type} {answers : Publication → Option α} {sent publications before after}
    {published : Prop} [Decidable published]
    (fresh : latest answers publications = if published then some after else none)
    (covered : published ∨ after = before) (last : ∀ payload ∈ latest answers sent, payload = before) :
    ∀ payload ∈ latest answers (sent ++ publications), payload = after := by
  rw [latest_append,fresh]
  by_cases sentAnew : published
  · simp [sentAnew]
  · rw [covered.resolve_left sentAnew]
    simpa [sentAnew] using last

section
variable [FleetosCore] [Formats]

theorem buildSagSnapshot_congr (rules : left .sagRules = right .sagRules)
    (delegations : left .revokedDelegations = right .revokedDelegations)
    (svids : left .revokedSvids = right .revokedSvids) : buildSagSnapshot left = buildSagSnapshot right := by
  simp only [buildSagSnapshot,rules,scanRecords_congr delegations,scanRecords_congr svids]

section
variable [PodMessages] [Naming] [StreamFormats]

theorem buildScheduleSnapshot_congr (placements : left .placements = right .placements)
    (workloads : left .workloads = right .workloads) (dataTrustDomain : String) :
    buildScheduleSnapshot left dataTrustDomain = buildScheduleSnapshot right dataTrustDomain := by
  have record : assignmentRecord left dataTrustDomain = assignmentRecord right dataTrustDomain := by
    funext placement
    simp only [assignmentRecord,lookupWorkloadSpec,workloads]
  simp only [buildScheduleSnapshot,scanRecords_congr placements,record]

end

theorem dummyIpOf_congr {placement : Placement}
    (same : (left .dummyIps)[serviceAddressKey placement.tenantId placement.service placement.role]? =
      (right .dummyIps)[serviceAddressKey placement.tenantId placement.service placement.role]?) :
    dummyIpOf left placement = dummyIpOf right placement := by
  simp only [dummyIpOf,same]

section
variable [ManifestMessages] [StreamFormats]

theorem buildRoutesSnapshot_congr (placements : left .placements = right .placements)
    (rules : left .sagRules = right .sagRules)
    (addresses : ∀ placement ∈ scanRecords Placement right .placements, dummyIpOf left placement = dummyIpOf right placement)
    (dataTrustDomain : String) :
    buildRoutesSnapshot left dataTrustDomain = buildRoutesSnapshot right dataTrustDomain := by
  have index : computeSourceIndex left dataTrustDomain = computeSourceIndex right dataTrustDomain := by
    simp only [computeSourceIndex,rules]
  simp only [buildRoutesSnapshot,scanRecords_congr placements,index]
  congr 1
  apply List.map_congr_left
  intro placement member
  simp only [routeRecord,addresses placement member]

end

end

section
variable [FleetosCore]

/-- Every command that changes policy or revocations publishes them, an apply of manifests apart. -/
theorem sag_covered (cmd : FleetosCommand) : cmd.changeKind ∈ [ChangeKind.eviction,.sagUpdate,.revokedDelegations] ∨
      (.sagRules ∉ cmd.touches ∧ .revokedDelegations ∉ cmd.touches ∧ .revokedSvids ∉ cmd.touches) ∨
      ∃ updates, cmd = .applyManifests updates := by
  cases cmd <;> simp [FleetosCommand.changeKind,touches]

theorem schedule_covered (cmd : FleetosCommand) :
    cmd.changeKind ∈ [ChangeKind.eviction,.schedulingUpdate] ∨ (.placements ∉ cmd.touches ∧ .workloads ∉ cmd.touches) := by
  cases cmd <;> simp [FleetosCommand.changeKind,touches]

/-- Every command that changes the routes publishes them, except the two that allocate addresses. -/
theorem routes_covered (cmd : FleetosCommand) :
    cmd.changeKind ∈ [ChangeKind.eviction,.sagUpdate,.revokedDelegations,.schedulingUpdate] ∨
      (.placements ∉ cmd.touches ∧ .sagRules ∉ cmd.touches ∧ .dummyIps ∉ cmd.touches) ∨
      (∃ block, cmd = .allocateTenantBlock block) ∨ ∃ block address, cmd = .allocateServiceAddress block address := by
  cases cmd <;> simp [FleetosCommand.changeKind,touches]

variable [Formats]

theorem reported_cases (advances : Advances before entry after)
    (payload : payloadWrites before.disk entry = .ok (writes,kind)) :
    (∃ audited, entry.payload = .normal audited ∧ kind = audited.cmd.changeKind ∧
      applyCommand before.disk audited.cmd = .ok (writes,kind) ∧
      (∀ keyspace : Keyspace, keyspace.application = true → after.disk keyspace = commit before.disk writes keyspace) ∧
      ∀ keyspace : Keyspace, keyspace.application = true → keyspace ∉ audited.cmd.touches →
        after.disk keyspace = before.disk keyspace) ∨ SameApplication after.disk before.disk := by
  rcases advances.cases with ⟨audited,changes,reported,normal,ok,contents⟩ | ⟨_,same⟩
  case inr => exact .inr same
  case inl =>
    simp only [payloadWrites,normal] at payload
    cases ok.symm.trans payload
    refine .inl ⟨audited,normal,applyCommand_kind ok,ok,contents,fun keyspace inside absent => ?_⟩
    rw [contents keyspace inside]
    exact applyCommand_frame ok keyspace absent

end

section
variable [FleetosCore] [Formats] [ManifestMessages] [PodMessages] [Naming] [StreamFormats] {dataTrustDomain : String}

structure Broadcaster where
  node : Node
  sent : List Publication

inductive Update where
  | applied (entry : Entry)
  | installed (info : SnapshotMeta) (data : Bytes)

inductive Publishes (dataTrustDomain : String) : Broadcaster → Update → Broadcaster → Prop where
  | applied {node next sent publications entry response} :
      applyAndPublish dataTrustDomain node entry = .ok (next,response,publications) →
      Publishes dataTrustDomain ⟨node,sent⟩ (.applied entry) ⟨next,sent ++ publications⟩
  | installed {node next sent info data} : installSnapshot node info data = .ok next →
      Publishes dataTrustDomain ⟨node,sent⟩ (.installed info data) ⟨next,sent⟩

/-- Whatever has gone out on a stream, the last of it is what the builder makes of the committed contents. -/
structure InStep (dataTrustDomain : String) (state : Broadcaster) : Prop where
  sag : ∀ payload ∈ latest Publication.sagPayload state.sent, payload = buildSagSnapshot state.node.disk
  schedule : ∀ payload ∈ latest Publication.schedulePayload state.sent,
    payload = buildScheduleSnapshot state.node.disk dataTrustDomain
  routes : ∀ payload ∈ latest Publication.routePayload state.sent,
    payload = buildRoutesSnapshot state.node.disk dataTrustDomain

theorem inStep_silent (dataTrustDomain : String) (node : Node) : InStep dataTrustDomain ⟨node,[]⟩ :=
  ⟨by simp,by simp,by simp⟩

/-- Applied manifests leave the rules, addresses the routes of placed pods, and snapshots everything. -/
def Update.Announced (disk : Disk) : Update → Prop
  | .applied entry => ∀ audited, entry.payload = .normal audited → match audited.cmd with
    | .applyManifests updates => ∀ update ∈ updates, update.targetKeyspace = "sag_rules" →
        (disk .sagRules)[update.targetKey]? = some update.newRecordBytes
    | .allocateServiceAddress _ address => ∀ placement ∈ scanRecords Placement disk .placements,
        serviceAddressKey placement.tenantId placement.service placement.role =
          serviceAddressKey address.tenantId address.service address.role → dummyIpOf disk placement = address.address
    | _ => True
  | .installed _ data => ∀ snapshot : ApplicationSnapshot, fromBytes data = .ok snapshot →
    ∀ keyspace ∈ streamKeyspaces, snapshot.restore keyspace = disk keyspace

section
variable (disk : Disk) (version : UInt64)

theorem latest_sag (kind : ChangeKind) : latest Publication.sagPayload (publishEvent dataTrustDomain disk version kind) =
    if kind ∈ [ChangeKind.eviction,.sagUpdate,.revokedDelegations] then some (buildSagSnapshot disk) else none := by
  cases kind <;> rfl

theorem latest_schedule (kind : ChangeKind) :
    latest Publication.schedulePayload (publishEvent dataTrustDomain disk version kind) =
      if kind ∈ [ChangeKind.eviction,.schedulingUpdate] then some (buildScheduleSnapshot disk dataTrustDomain)
      else none := by
  cases kind <;> rfl

theorem latest_route (kind : ChangeKind) :
    latest Publication.routePayload (publishEvent dataTrustDomain disk version kind) =
      if kind ∈ [ChangeKind.eviction,.sagUpdate,.revokedDelegations,.schedulingUpdate] then
        some (buildRoutesSnapshot disk dataTrustDomain) else none := by
  cases kind <;> rfl

end

section
variable {before after : Node} {entry : Entry} {writes : List Write} {kind : ChangeKind}

theorem sag_kept (advances : Advances before entry after)
    (payload : payloadWrites before.disk entry = .ok (writes,kind))
    (announced : Update.Announced before.disk (.applied entry)) :
    kind ∈ [ChangeKind.eviction,.sagUpdate,.revokedDelegations] ∨
      buildSagSnapshot after.disk = buildSagSnapshot before.disk := by
  rcases reported_cases advances payload with ⟨audited,normal,reported,ok,contents,untouched⟩ | same
  case inr => exact .inr (buildSagSnapshot_congr (same _ rfl) (same _ rfl) (same _ rfl))
  rcases sag_covered audited.cmd with published | ⟨rules,delegations,svids⟩ | ⟨updates,manifests⟩
  · exact .inl (reported ▸ published)
  · exact .inr (buildSagSnapshot_congr (untouched _ rfl rules) (untouched _ rfl delegations) (untouched _ rfl svids))
  · right
    have stored := announced audited normal
    rw [manifests] at ok stored untouched
    refine buildSagSnapshot_congr ?_ (untouched _ rfl (by simp [touches]))
      (untouched _ rfl (by simp [touches]))
    rw [contents .sagRules rfl]
    cases ok
    apply commit_restores
    intro write member named
    obtain ⟨update,inside,made⟩ := mem_filterMap.mp member
    obtain ⟨keyspace,target,rfl⟩ := map_eq_some_iff.mp made
    obtain rfl : keyspace = .sagRules := named
    refine ⟨update.targetKey,update.newRecordBytes,rfl,stored update inside ?_⟩
    unfold manifestKeyspace at target
    split at target <;> first | assumption | cases target

theorem schedule_kept (advances : Advances before entry after)
    (payload : payloadWrites before.disk entry = .ok (writes,kind)) (dataTrustDomain : String) :
    kind ∈ [ChangeKind.eviction,.schedulingUpdate] ∨
      buildScheduleSnapshot after.disk dataTrustDomain = buildScheduleSnapshot before.disk dataTrustDomain := by
  rcases reported_cases advances payload with ⟨audited,_,reported,_,_,untouched⟩ | same
  case inr => exact .inr (buildScheduleSnapshot_congr (same _ rfl) (same _ rfl) _)
  rcases schedule_covered audited.cmd with published | ⟨placements,workloads⟩
  · exact .inl (reported ▸ published)
  · exact .inr (buildScheduleSnapshot_congr (untouched _ rfl placements) (untouched _ rfl workloads) _)

theorem dummyIpOf_tenantBlock {disk after block}
    (ok : applyCommand disk (.allocateTenantBlock block) = .ok (writes,kind))
    (contents : after .dummyIps = commit disk writes .dummyIps) (placement : Placement) :
    dummyIpOf after placement = dummyIpOf disk placement := by
  apply dummyIpOf_congr
  rw [contents]
  cases ok
  apply commit_lookup_other
  intro write member _
  rw [mem_singleton.mp member]
  exact tenantBlockKey_ne block.tenantId ⟨placement.tenantId,placement.service,placement.role⟩

theorem dummyIpOf_serviceAddress {disk after block address}
    (ok : applyCommand disk (.allocateServiceAddress block address) = .ok (writes,kind))
    (contents : after .dummyIps = commit disk writes .dummyIps) {placement : Placement}
    (agreed : serviceAddressKey placement.tenantId placement.service placement.role =
      serviceAddressKey address.tenantId address.service address.role → dummyIpOf disk placement = address.address) :
    dummyIpOf after placement = dummyIpOf disk placement := by
  cases ok
  by_cases named : serviceAddressKey placement.tenantId placement.service placement.role =
      serviceAddressKey address.tenantId address.service address.role
  · rw [agreed named]
    have stored : (after .dummyIps)[serviceAddressKey placement.tenantId placement.service placement.role]? =
        some (toAllocvec address) := by
      rw [contents,named]
      simp only [commit_cons,commit_nil,put,perform,Write.on,Write.table_insert,Function.update_self]
      exact insert_eq_some.mpr (.inl ⟨rfl,rfl⟩)
    simp [dummyIpOf,stored,Except.toOption]
  · apply dummyIpOf_congr
    rw [contents]
    apply commit_lookup_other
    intro write inside _
    rcases mem_cons.mp inside with rfl | inside
    · exact tenantBlockKey_ne block.tenantId ⟨placement.tenantId,placement.service,placement.role⟩
    · rw [mem_singleton.mp inside]
      exact Ne.symm named

theorem routes_kept (advances : Advances before entry after)
    (payload : payloadWrites before.disk entry = .ok (writes,kind))
    (announced : Update.Announced before.disk (.applied entry)) (dataTrustDomain : String) :
    kind ∈ [ChangeKind.eviction,.sagUpdate,.revokedDelegations,.schedulingUpdate] ∨
      buildRoutesSnapshot after.disk dataTrustDomain = buildRoutesSnapshot before.disk dataTrustDomain := by
  rcases reported_cases advances payload with ⟨audited,normal,reported,ok,contents,untouched⟩ | same
  case inr =>
    exact .inr (buildRoutesSnapshot_congr (same _ rfl) (same _ rfl) (fun _ _ => dummyIpOf_congr (by rw [same _ rfl])) _)
  rcases routes_covered audited.cmd with published | ⟨placements,rules,addresses⟩ | ⟨block,allocated⟩ |
    ⟨block,address,allocated⟩
  · exact .inl (reported ▸ published)
  · exact .inr (buildRoutesSnapshot_congr (untouched _ rfl placements) (untouched _ rfl rules)
      (fun _ _ => dummyIpOf_congr (by rw [untouched _ rfl addresses])) _)
  · right
    rw [allocated] at ok untouched
    refine buildRoutesSnapshot_congr (untouched _ rfl (by simp [touches]))
      (untouched _ rfl (by simp [touches])) ?_ _
    exact fun placement _ => dummyIpOf_tenantBlock ok (contents .dummyIps rfl) placement
  · right
    have agreed := announced audited normal
    rw [allocated] at ok untouched agreed
    refine buildRoutesSnapshot_congr (untouched _ rfl (by simp [touches]))
      (untouched _ rfl (by simp [touches])) ?_ _
    exact fun placement member => dummyIpOf_serviceAddress ok (contents .dummyIps rfl) (agreed placement member)

end

theorem inStep_keeps {before after update} (publishes : Publishes dataTrustDomain before update after)
    (announced : update.Announced before.node.disk) (inStep : InStep dataTrustDomain before) :
    InStep dataTrustDomain after := by
  cases publishes with
  | @applied node next _ _ entry _ ok =>
    obtain ⟨applied,writes,kind,payload,rfl⟩ := applyAndPublish_ok ok
    have advances : Advances node entry next := ⟨_,applied⟩
    exact ⟨latest_kept (latest_sag _ _ kind) (sag_kept advances payload announced) inStep.sag,
      latest_kept (latest_schedule _ _ kind) (schedule_kept advances payload _) inStep.schedule,
      latest_kept (latest_route _ _ kind) (routes_kept advances payload announced _) inStep.routes⟩
  | @installed node next _ _ _ ok =>
    obtain ⟨snapshot,decoded,effect⟩ := installSnapshot_effect ok
    have carried : ∀ keyspace ∈ streamKeyspaces, keyspace ∈ snapshotKeyspaces ∧ keyspace ≠ .raftState := by decide
    have same : ∀ keyspace ∈ streamKeyspaces, next.disk keyspace = node.disk keyspace := by
      intro keyspace member
      rw [effect.restored keyspace (carried keyspace member).1 (carried keyspace member).2]
      exact announced snapshot decoded keyspace member
    have placements := same .placements (by decide)
    have rules := same .sagRules (by decide)
    refine ⟨fun payload last => (inStep.sag payload last).trans ?_,
      fun payload last => (inStep.schedule payload last).trans ?_,
      fun payload last => (inStep.routes payload last).trans ?_⟩
    · rw [buildSagSnapshot_congr rules (same _ (by decide)) (same _ (by decide))]
    · rw [buildScheduleSnapshot_congr placements (same _ (by decide))]
    · rw [buildRoutesSnapshot_congr placements rules fun _ _ => dummyIpOf_congr (by rw [same .dummyIps (by decide)])]

/-- As long as unannounced changes leave alone what the streams are built from. -/
theorem streams_stay_in_step {first last : Broadcaster} {trace : List (Transition Broadcaster Update)}
    (start : InStep dataTrustDomain first) (run : Run (Publishes dataTrustDomain) first trace last)
    (announced : ∀ transition ∈ trace, transition.label.Announced transition.before.node.disk) :
    (∀ transition ∈ trace, InStep dataTrustDomain transition.after) ∧ InStep dataTrustDomain last := by
  obtain ⟨every,final⟩ := run.invariant (InStep dataTrustDomain)
    (fun transition => transition.label.Announced transition.before.node.disk)
    (fun _ _ _ publishes meets inStep => inStep_keeps publishes meets inStep) start announced
  exact ⟨fun transition member => (every transition member).2,final⟩

end

open Reference

def Broadcaster.taken (state : Broadcaster) (entry : Entry) : Broadcaster :=
  match applyAndPublish "data.example.internal" state.node entry with
  | .ok (node,_,publications) => ⟨node,state.sent ++ publications⟩
  | .error _ => state

theorem taken_publishes {state : Broadcaster} {entry}
    (ok : (applyAndPublish "data.example.internal" state.node entry).isOk = true) :
    Publishes "data.example.internal" state (.applied entry) (state.taken entry) := by
  unfold Broadcaster.taken
  cases outcome : applyAndPublish "data.example.internal" state.node entry with
  | error e => simp [outcome,Except.isOk,Except.toBool] at ok
  | ok result => exact .applied outcome

def pledged : Broadcaster := (Broadcaster.taken ⟨boot Disk.empty,[]⟩ ⟨logIdAt 1,.blank⟩).taken
  (commandAt 2 (.commitPlacement shopPlacement))

def pledging : List (Transition Broadcaster Update) :=
  [⟨⟨boot Disk.empty,[]⟩,.applied ⟨logIdAt 1,.blank⟩,Broadcaster.taken ⟨boot Disk.empty,[]⟩ ⟨logIdAt 1,.blank⟩⟩,
    ⟨Broadcaster.taken ⟨boot Disk.empty,[]⟩ ⟨logIdAt 1,.blank⟩,.applied (commandAt 2 (.commitPlacement shopPlacement)),
      pledged⟩]

theorem pledging_run : Run (Publishes "data.example.internal") ⟨boot Disk.empty,[]⟩ pledging pledged :=
  .cons (taken_publishes rfl) (.cons (taken_publishes rfl) (.nil _))

theorem pledging_announced : ∀ transition ∈ pledging, transition.label.Announced transition.before.node.disk := by
  intro transition member
  rcases mem_cons.mp member with rfl | member
  · intro audited normal
    cases normal
  · rw [mem_singleton.mp member]
    intro audited normal
    cases normal
    trivial

theorem pledged_sent : latest Publication.sagPayload pledged.sent = some (buildSagSnapshot pledged.node.disk) ∧
    latest Publication.schedulePayload pledged.sent =
      some (buildScheduleSnapshot pledged.node.disk "data.example.internal") ∧
    latest Publication.routePayload pledged.sent =
      some (buildRoutesSnapshot pledged.node.disk "data.example.internal") := by
  decide +kernel

def withUpsertedRule : Broadcaster := pledged.taken (commandAt 3 (.upsertSagRule ⟨"shop-to-db",[10],[]⟩))

theorem upserted_rule_published : Run (Publishes "data.example.internal") ⟨boot Disk.empty,[]⟩
      (pledging ++ [⟨pledged,.applied (commandAt 3 (.upsertSagRule ⟨"shop-to-db",[10],[]⟩)),withUpsertedRule⟩])
      withUpsertedRule ∧
    (latest Publication.sagPayload withUpsertedRule.sent).isSome = true ∧
    InStep "data.example.internal" withUpsertedRule := by
  have run : Run (Publishes "data.example.internal") ⟨boot Disk.empty,[]⟩
      (pledging ++ [⟨pledged,.applied (commandAt 3 (.upsertSagRule ⟨"shop-to-db",[10],[]⟩)),withUpsertedRule⟩])
      withUpsertedRule := pledging_run.append (.cons (taken_publishes rfl) (.nil _))
  refine ⟨run,by decide +kernel,(streams_stay_in_step (inStep_silent _ _) run ?_).2⟩
  intro transition member
  rcases mem_append.mp member with earlier | added
  · exact pledging_announced transition earlier
  · rw [mem_singleton.mp added]
    intro audited normal
    cases normal
    trivial

def withRule : Broadcaster := pledged.taken ⟨logIdAt 3,.normal (appliedRule shopToDb)⟩

def withAddress : Broadcaster :=
  pledged.taken (commandAt 3 (.allocateServiceAddress ⟨"acme",0xF0000000,24,2⟩ ⟨"acme","shop","web",0xF0000001⟩))

def snapshotWithRule : Bytes := toAllocvec (⟨collectKeyspacesFromView withRule.node.disk⟩ : ApplicationSnapshot)

/-- Rules from an apply or a snapshot, and the address of a placed service. -/
theorem changes_unpublished : Run (Publishes "data.example.internal") ⟨boot Disk.empty,[]⟩ pledging pledged ∧
    InStep "data.example.internal" pledged ∧
    (Publishes "data.example.internal" pledged (.applied ⟨logIdAt 3,.normal (appliedRule shopToDb)⟩) withRule ∧
      ¬InStep "data.example.internal" withRule) ∧
    (Publishes "data.example.internal" pledged
        (.applied (commandAt 3 (.allocateServiceAddress ⟨"acme",0xF0000000,24,2⟩ ⟨"acme","shop","web",0xF0000001⟩)))
        withAddress ∧
      ¬InStep "data.example.internal" withAddress) ∧
    ∃ next, Publishes "data.example.internal" pledged (.installed ⟨none,.default,"snap"⟩ snapshotWithRule)
      ⟨next,pledged.sent⟩ ∧ ¬InStep "data.example.internal" ⟨next,pledged.sent⟩ := by
  obtain ⟨sag,schedule,routes⟩ := pledged_sent
  have changed : buildSagSnapshot pledged.node.disk ≠ buildSagSnapshot withRule.node.disk := by decide +kernel
  have ruleSent : latest Publication.sagPayload withRule.sent = some (buildSagSnapshot pledged.node.disk) := by
    decide +kernel
  have moved : latest Publication.routePayload withAddress.sent =
        some (buildRoutesSnapshot pledged.node.disk "data.example.internal") ∧
      buildRoutesSnapshot pledged.node.disk "data.example.internal" ≠
        buildRoutesSnapshot withAddress.node.disk "data.example.internal" := by decide +kernel
  refine ⟨pledging_run,⟨?_,?_,?_⟩,⟨taken_publishes rfl,?_⟩,⟨taken_publishes rfl,?_⟩,?_⟩
  · exact fun payload last => Option.some.inj (last.symm.trans sag)
  · exact fun payload last => Option.some.inj (last.symm.trans schedule)
  · exact fun payload last => Option.some.inj (last.symm.trans routes)
  · exact fun inStep => changed (inStep.sag _ ruleSent)
  · exact fun inStep => moved.2 (inStep.routes _ moved.1)
  · obtain ⟨next,installed,carried⟩ := installSnapshot_collected pledged.node ⟨none,.default,"snap"⟩ withRule.node.disk
    have same : buildSagSnapshot next.disk = buildSagSnapshot withRule.node.disk :=
      buildSagSnapshot_congr (carried.contents _ (by decide) (by decide)) (carried.contents _ (by decide) (by decide))
        (carried.contents _ (by decide) (by decide))
    exact ⟨next,.installed installed,fun inStep => changed ((inStep.sag _ sag).trans same)⟩

end FleetosControl
