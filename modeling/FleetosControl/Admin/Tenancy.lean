import FleetosControl.Admin.Workloads
import FleetosControl.Apply.Batch
import FleetosControl.Ca.ReferencePlatform
import FleetosControl.Raft.Eviction
import FleetosControl.Secrets.Crypto

/-! What an operator of one tenant can do to another, and what one with read-only grants can bring about.
Two nodes take the same entries, except that the operator's requests reach only the first. -/
namespace FleetosControl
open Wire KeyValue Trace

def cronKey (tenantId cronWorkloadId : String) : Bytes := asBytes ("cron:" ++ tenantId ++ ":" ++ cronWorkloadId)

def secretKey (key : String) : Bytes := asBytes ("secret:" ++ key)

/-- Rules have no tenant, so all of them count; a stored secret does not say who stored it. -/
inductive BelongsTo (tenantId : String) (owns : String → Prop) : Keyspace → Bytes → Prop where
  | workload (workloadId : String) : BelongsTo tenantId owns .workloads (workloadKey tenantId workloadId)
  | cron (cronWorkloadId : String) : BelongsTo tenantId owns .workloads (cronKey tenantId cronWorkloadId)
  | secret {key} : owns key → BelongsTo tenantId owns .secrets (secretKey key)
  | acl {key} : owns key → BelongsTo tenantId owns .secrets (aclKey key)
  | rule (key : Bytes) : BelongsTo tenantId owns .sagRules key
  | quota : BelongsTo tenantId owns .tenantQuotas (asBytes tenantId)

theorem belongs_application (belongs : BelongsTo tenantId owns keyspace key) : keyspace.application = true := by
  cases belongs <;> rfl

def Agree (tenantId : String) (owns : String → Prop) (left right : Disk) : Prop :=
  ∀ keyspace key, BelongsTo tenantId owns keyspace key → (left keyspace)[key]? = (right keyspace)[key]?

/-- A tenant name that `create_tenant` accepts and that no other key starts with. -/
structure TenantName (tenantId : String) : Prop where
  valid : validateIdentifier tenantId "tenant_id" = .ok ()
  notCron : tenantId ≠ "cron"

theorem validateIdentifier_colon (valid : validateIdentifier value field = .ok ()) : ':' ∉ value.toList := by
  intro member
  unfold validateIdentifier at valid
  split at valid
  · cases valid
  split at valid
  case isTrue shape =>
    simp only [Bool.and_eq_true,List.all_eq_true] at shape
    have colon := shape.1.1 ':' member
    revert colon
    decide
  · cases valid

theorem colon_toList (first second : String) :
    (first ++ ":" ++ second).toList = first.toList ++ ':'::second.toList := by
  simp [String.toList_append]

theorem front_eq {first second left right : String} (absent : ':' ∉ first.toList) (missing : ':' ∉ left.toList)
    (same : asBytes (first ++ ":" ++ second) = asBytes (left ++ ":" ++ right)) : first = left ∧ second = right := by
  have texts := congrArg String.toList (asBytes_injective same)
  rw [colon_toList,colon_toList,Separated.join_inj_first absent missing,String.toList_inj,String.toList_inj] at texts
  exact texts

theorem cronKey_eq (tenantId cronWorkloadId : String) :
    cronKey tenantId cronWorkloadId = asBytes ("cron" ++ ":" ++ (tenantId ++ ":" ++ cronWorkloadId)) := by
  apply congrArg asBytes
  apply String.toList_inj.mp
  simp [String.toList_append]

section
variable {own other name : String} (ownName : TenantName own) (otherName : TenantName other) (distinct : own ≠ other)
  {owns : String → Prop} {key : Bytes}

include ownName otherName distinct

theorem workloadKey_foreign (belongs : BelongsTo other owns .workloads key) : workloadKey own name ≠ key := by
  intro same
  have colonless := validateIdentifier_colon ownName.valid
  cases belongs with
  | workload workloadId => exact distinct (front_eq colonless (validateIdentifier_colon otherName.valid) same).1
  | cron cronWorkloadId =>
    rw [cronKey_eq] at same
    exact ownName.notCron (front_eq colonless (by decide) same).1

theorem leaves_workload (name : String) (write : Write) (table : write.table = .workloads)
    (key : write.key = workloadKey own name) (found : Bytes) (belongs : BelongsTo other owns write.table found) :
    write.key ≠ found := by
  rw [table] at belongs
  rw [key]
  exact workloadKey_foreign ownName otherName distinct belongs

theorem cronKey_foreign (belongs : BelongsTo other owns .workloads key) : cronKey own name ≠ key := by
  intro same
  have colonless := validateIdentifier_colon otherName.valid
  rw [cronKey_eq] at same
  cases belongs with
  | workload workloadId => exact otherName.notCron (front_eq (by decide) colonless same).1.symm
  | cron cronWorkloadId =>
    rw [cronKey_eq] at same
    obtain ⟨_,names⟩ := front_eq (by decide) (by decide) same
    exact distinct (front_eq (validateIdentifier_colon ownName.valid) colonless (congrArg asBytes names)).1

end

theorem secret_foreign {owns : String → Prop} (foreign : ¬owns name)
    (belongs : BelongsTo tenantId owns .secrets key) : secretKey name ≠ key ∧ aclKey name ≠ key := by
  have cancel : ∀ word left right : String, asBytes (word ++ left) = asBytes (word ++ right) → left = right := by
    intro word left right same
    rw [asBytes_append,asBytes_append] at same
    exact asBytes_injective (List.append_cancel_left same)
  cases belongs with
  | secret owned =>
    exact ⟨fun same => foreign (cancel _ _ _ same ▸ owned),fun same => secretKey_ne_aclKey _ _ same.symm⟩
  | acl owned =>
    exact ⟨secretKey_ne_aclKey _ _,fun same => foreign (cancel _ _ _ same ▸ owned)⟩

section
variable [FleetosCore] [Formats]

namespace AdminServer

structure WritesOnly (server : AdminServer) (operator : SpiffeId) (tenantId : String) : Prop where
  kind : FleetosCore.kind operator = .operator
  plain : server.bootstrapAdmins.contains (display operator) = false
  grants : ∀ grant ∈ activeGrantsForOperator server.storage (display operator) server.now.toUInt64,
    grant.readOnly = false → grant.clusterAdmin = false ∧ ∀ granted ∈ grant.tenants, granted = tenantId

variable {server : AdminServer} {operator : SpiffeId} {tenantId : String}

theorem WritesOnly.tenant (only : server.WritesOnly operator tenantId)
    (write : (server.requireTenantWrite (some operator) named).isOk = true) : named = tenantId := by
  have ctrl : ¬FleetosCore.kind operator = .ctrl := by simp [only.kind]
  unfold requireTenantWrite at write
  simp only [callerIsCtrl,callerSpiffeId,peerIdentity,Bind.bind,Except.bind,Pure.pure,Except.pure,ctrl,decide_false,
    Bool.false_eq_true,if_false] at write
  split at write
  case isTrue granted =>
    obtain ⟨grant,active,allows⟩ := List.any_eq_true.mp granted
    simp only [Bool.and_eq_true,Bool.or_eq_true,Bool.not_eq_true',List.contains_iff_mem] at allows
    obtain ⟨writable,scope⟩ := allows
    obtain ⟨noAdmin,tenants⟩ := only.grants grant active writable
    rcases scope with admin | listed
    · rw [noAdmin] at admin
      cases admin
    · exact tenants named listed
  case isFalse => simp [permissionDenied,Except.isOk,Except.toBool] at write

theorem WritesOnly.not_admin (only : server.WritesOnly operator tenantId) :
    (server.requireClusterAdminWrite (some operator)).isOk = false := by
  have ctrl : ¬FleetosCore.kind operator = .ctrl := by simp [only.kind]
  have plain := only.plain
  unfold requireClusterAdminWrite
  simp only [callerIsCtrl,callerSpiffeId,peerIdentity,Bind.bind,Except.bind,Pure.pure,Except.pure,ctrl,decide_false,
    Bool.false_eq_true,if_false,plain]
  split
  case isTrue granted =>
    obtain ⟨grant,active,allows⟩ := List.any_eq_true.mp granted
    simp only [Bool.and_eq_true,Bool.not_eq_true'] at allows
    rw [(only.grants grant active allows.2).1] at allows
    cases allows.1
  case isFalse => rfl

variable [CronMessages] [WorkloadMessages] [Merges]

/-- Requests that are not listed check the cluster-admin write scope first, or propose nothing. -/
inductive Requests (server : AdminServer) (peer : Peer) : AuditedCommand → Prop where
  | submitWorkloadSpec {requestId spec audited} :
      server.submitWorkloadSpec peer requestId spec = .ok audited → Requests server peer audited
  | deleteWorkload {requestId req audited} :
      server.deleteWorkload peer requestId req = .ok audited → Requests server peer audited
  | scaleWorkload {requestId req audited} :
      server.scaleWorkload peer requestId req = .ok audited → Requests server peer audited
  | submitCronWorkload {requestId cron audited} :
      server.submitCronWorkload peer requestId cron = .ok audited → Requests server peer audited
  | storeSecret {requestId} {encryptAtRest : Bytes → Except String Bytes} {req audited} :
      server.storeSecret peer requestId encryptAtRest req = .ok audited → Requests server peer audited
  | grantSecretAccess {requestId req audited} :
      server.grantSecretAccess peer requestId req = .ok audited → Requests server peer audited
  | revokeSecretAccess {requestId req audited} :
      server.revokeSecretAccess peer requestId req = .ok audited → Requests server peer audited
  | apply {requestId req response audited} :
      server.apply peer requestId req = .ok response → response.proposal = some audited → Requests server peer audited
  -- a delegated key asks for the cluster-admin scope, but not for writing
  | requestDelegatedKey {record} {audited : AuditedCommand} :
      server.requireClusterAdmin peer = .ok () → audited.cmd = .issueDelegation record → Requests server peer audited
  | clusterAdmin {audited} : server.requireClusterAdminWrite peer = .ok () → Requests server peer audited

end AdminServer

/-- The command names no secret of the other tenant, changes no rule, and scales a record of the own tenant only. -/
def FleetosCommand.Spares (tenantId : String) (owns : String → Prop) : FleetosCommand → Prop
  | .storeSecret record _ => ¬owns record.key
  | .grantSecretAccess _ key _ | .revokeSecretAccess _ key _ => ¬owns key
  | .scaleWorkload record => record.tenantId = tenantId
  | .applyManifests updates => ∀ update ∈ updates, update.targetKeyspace ≠ "sag_rules" ∧
      (update.targetKeyspace = "secrets" → ∀ key, owns key → update.targetKey ≠ secretKey key)
  | _ => True

def Leaves (tenantId : String) (owns : String → Prop) (writes : List Write) : Prop :=
  ∀ write ∈ writes, ∀ key, BelongsTo tenantId owns write.table key → write.key ≠ key

theorem leaves_freed (tenantId workloadId : String) (placements : List Placement) :
    Leaves other owns (placements.flatMap (freePlacement tenantId workloadId)) := by
  intro write member key belongs
  have freed := within_freed tenantId workloadId placements write member
  generalize write.table = keyspace at belongs freed
  cases belongs <;> simp at freed

section
variable [CronMessages] [WorkloadMessages] [Merges] {server : AdminServer} {operator : SpiffeId} {own other : String}
  {owns : String → Prop} (ownName : TenantName own) (otherName : TenantName other) (distinct : own ≠ other)
  {audited : AuditedCommand} {disk : Disk} {writes : List Write} {kind : ChangeKind}

omit [CronMessages] [WorkloadMessages] in
include ownName otherName distinct in
theorem apply_leaves (only : server.WritesOnly operator own)
    (ok : server.apply (some operator) requestId req = .ok response) (proposed : response.proposal = some audited)
    (spares : audited.cmd.Spares own owns) (applied : applyCommand disk audited.cmd = .ok (writes,kind)) :
    Leaves other owns writes := by
  obtain ⟨manifests,listed⟩ := AdminServer.apply_manifests ok
  obtain ⟨_,proposes⟩ := ((apply_answers listed ok).2.2 audited).mp proposed
  rw [proposes.command] at applied spares
  cases applied
  intro write member key belongs
  obtain ⟨update,updated,made⟩ := mem_filterMap.mp member
  obtain ⟨keyspace,named,rfl⟩ := map_eq_some_iff.mp made
  obtain ⟨noRule,noSecret⟩ := spares update updated
  obtain ⟨manifest,inside,processed⟩ := mem_filterMap.mp updated
  have authorized := (proposes.admitted manifest inside).2
  have tenant : manifest.tenantId = own := by
    unfold AdminServer.authorizedFor at authorized
    split at authorized
    · rw [only.not_admin] at authorized
      cases authorized
    · exact only.tenant authorized
  obtain ⟨_,_,target,_,_⟩ := processManifest_update.mp processed
  obtain ⟨targetKeyspace,targetKey,newRecordBytes⟩ := update
  cases targets_of_target target with
  | workload _ =>
    cases named
    exact leaves_workload ownName otherName distinct manifest.name _ rfl (by rw [← tenant]; rfl) key belongs
  | sagRule _ => exact absurd rfl noRule
  | secret _ =>
    cases named
    have foreign : ¬owns manifest.name := fun owned => noSecret rfl _ owned rfl
    exact (secret_foreign foreign belongs).1
  | tenant _ | nodePool _ =>
    cases named
    cases belongs

include ownName otherName distinct in
theorem request_leaves (only : server.WritesOnly operator own) (requests : server.Requests (some operator) audited)
    (spares : audited.cmd.Spares own owns) (applied : applyCommand disk audited.cmd = .ok (writes,kind)) :
    Leaves other owns writes := by
  have tenant : ∀ {named : String}, server.requireTenantWrite (some operator) named = .ok () → named = own :=
    fun write => only.tenant (by rw [write]; rfl)
  cases requests with
  | submitWorkloadSpec ok =>
    obtain ⟨write,_,command⟩ := AdminServer.submitWorkloadSpec_proposes ok
    rw [command] at applied
    cases applied
    intro write' member key belongs
    rw [mem_singleton.mp member] at belongs ⊢
    exact leaves_workload ownName otherName distinct _ _ rfl (by rw [tenant write]; rfl) key belongs
  | deleteWorkload ok =>
    obtain ⟨write,command⟩ := AdminServer.deleteWorkload_proposes ok
    rw [command] at applied
    cases applied
    intro write' member key belongs
    rcases mem_cons.mp member with rfl | freed
    · exact leaves_workload ownName otherName distinct _ _ rfl (by rw [tenant write]; rfl) key belongs
    · exact leaves_freed _ _ _ write' freed key belongs
  | scaleWorkload ok =>
    obtain ⟨_,_,record,_,_,_,_,command⟩ := AdminServer.scaleWorkload_proposes ok
    rw [command] at applied spares
    cases applied
    intro write' member key belongs
    rcases mem_cons.mp member with rfl | freed
    · have scaled : record.tenantId = own := spares
      exact leaves_workload ownName otherName distinct _ _ rfl (by rw [← scaled]; rfl) key belongs
    · exact leaves_freed _ _ _ write' freed key belongs
  | submitCronWorkload ok =>
    obtain ⟨write,_,record,checkpoint,command,named⟩ := AdminServer.submitCronWorkload_proposes ok
    rw [command] at applied
    cases applied
    intro write' member key belongs
    simp only [mem_cons,not_mem_nil,or_false] at member
    rcases member with rfl | rfl
    · have owned : record.tenantId = own := named.trans (tenant write)
      rw [← owned] at ownName distinct
      exact cronKey_foreign ownName otherName distinct belongs
    · cases belongs
  | storeSecret ok =>
    obtain ⟨record,target,_,command,_⟩ := storeSecret_proposes ok
    rw [command] at applied spares
    cases applied
    intro write' member key belongs
    simp only [mem_cons,not_mem_nil,or_false] at member
    rcases member with rfl | rfl
    · exact (secret_foreign spares belongs).1
    · exact (secret_foreign spares belongs).2
  | grantSecretAccess ok | revokeSecretAccess ok =>
    obtain ⟨_,_,command⟩ := changeSecretAccess_proposes ok
    rw [command] at applied spares
    obtain ⟨_,_,applied⟩ := bind_ok applied
    obtain ⟨_,_,applied⟩ := bind_ok applied
    cases applied
    intro write' member key belongs
    rw [mem_singleton.mp member] at belongs ⊢
    exact (secret_foreign spares belongs).2
  | apply ok proposed => exact apply_leaves ownName otherName distinct only ok proposed spares applied
  | requestDelegatedKey _ command =>
    rw [command] at applied
    cases applied
    intro write' member key belongs
    rw [mem_singleton.mp member] at belongs
    cases belongs
  | clusterAdmin admin =>
    have refused := only.not_admin
    rw [admin] at refused
    cases refused

end

section
variable {left right : Disk} {tenantId : String} {owns : String → Prop} {keyspace : Keyspace} {key : Bytes}
  {first second : List Write} {kind : ChangeKind}

theorem freed_determined {first second : List Placement} (belongs : BelongsTo tenantId owns keyspace key)
    (same : (left keyspace)[key]? = (right keyspace)[key]?) :
    (commit left (write::first.flatMap (freePlacement workload name)) keyspace)[key]? =
      (commit right (write::second.flatMap (freePlacement workload name)) keyspace)[key]? := by
  have freed : ∀ placements : List Placement, ∀ write ∈ placements.flatMap (freePlacement workload name),
      write.table = keyspace → write.key ≠ key :=
    fun placements write member table => leaves_freed workload name placements write member key (table ▸ belongs)
  rw [commit_cons,commit_cons,commit_lookup_other _ _ (freed first),commit_lookup_other _ _ (freed second)]
  exact commit_lookup_congr left right [write] same

theorem updateSecretAcl_determined {change : SecretAcl → SpiffeId → SecretAcl}
    (appliedLeft : updateSecretAcl left secret spiffeId change = .ok (first,kind))
    (appliedRight : updateSecretAcl right secret spiffeId change = .ok (second,kind'))
    (same : (left .secrets)[key]? = (right .secrets)[key]?) :
    (commit left first .secrets)[key]? = (commit right second .secrets)[key]? := by
  by_cases own : aclKey secret = key
  · subst own
    have read : readRecord SecretAcl left .secrets (aclKey secret) = readRecord SecretAcl right .secrets (aclKey secret) := by
      simp only [readRecord,same]
    unfold updateSecretAcl at appliedLeft appliedRight
    rw [read] at appliedLeft
    cases appliedLeft.symm.trans appliedRight
    exact commit_lookup_congr _ _ _ same
  · obtain ⟨_,_,appliedLeft⟩ := bind_ok appliedLeft
    obtain ⟨_,_,appliedLeft⟩ := bind_ok appliedLeft
    obtain ⟨_,_,appliedRight⟩ := bind_ok appliedRight
    obtain ⟨_,_,appliedRight⟩ := bind_ok appliedRight
    cases appliedLeft
    cases appliedRight
    have elsewhere : ∀ acl : SecretAcl, ∀ write ∈ [put .secrets (aclKey secret) acl], write.table = .secrets →
        write.key ≠ key := by
      intro acl write member _
      rw [mem_singleton.mp member]
      exact own
    rw [commit_lookup_other _ _ (elsewhere _),commit_lookup_other _ _ (elsewhere _),same]

theorem command_determined (appliedLeft : applyCommand left cmd = .ok (first,kind))
    (appliedRight : applyCommand right cmd = .ok (second,kind')) (belongs : BelongsTo tenantId owns keyspace key)
    (same : (left keyspace)[key]? = (right keyspace)[key]?) :
    (commit left first keyspace)[key]? = (commit right second keyspace)[key]? := by
  by_cases touched : keyspace ∈ cmd.touches
  case neg => rw [applyCommand_frame appliedLeft keyspace touched,applyCommand_frame appliedRight keyspace touched,same]
  cases cmd
  case grantSecretAccess | revokeSecretAccess =>
    rw [mem_singleton.mp touched] at same ⊢
    simp only [applyCommand] at appliedLeft appliedRight
    exact updateSecretAcl_determined appliedLeft appliedRight same
  case deleteWorkload | scaleWorkload =>
    cases appliedLeft
    cases appliedRight
    exact freed_determined belongs same
  case activateNodeEk | revokeNodeEk | removeNodeTaint | setNodeSchedulable | nodeHeartbeat | evictNode
      | pruneExpiredRevokedSvids | revokeDelegation | upsertWorkloadStatus | reassignPodId =>
    cases belongs <;> simp [touches] at touched
  all_goals
    cases appliedLeft
    cases appliedRight
    exact commit_lookup_congr _ _ _ same

end

section
variable [CronMessages] [WorkloadMessages] [Merges] {operator : SpiffeId} {own other : String} {owns : String → Prop}

inductive Happening where
  | request (audited : AuditedCommand)
  | other (payload : EntryPayload)

/-- Both nodes take what others propose, and only the first takes what the operator asks for. -/
inductive Beside (operator : SpiffeId) (own : String) : Node × Node → Happening → Node × Node → Prop where
  | request {server : AdminServer} {audited logId acted acted' spared} :
      server.WritesOnly operator own → server.Requests (some operator) audited →
      Advances acted ⟨logId,.normal audited⟩ acted' →
      Beside operator own (acted,spared) (.request audited) (acted',spared)
  | other {payload logId logId' acted acted' spared spared'} :
      Advances acted ⟨logId,payload⟩ acted' → Advances spared ⟨logId',payload⟩ spared' →
      Beside operator own (acted,spared) (.other payload) (acted',spared')

theorem beside_agree (ownName : TenantName own) (otherName : TenantName other) (distinct : own ≠ other)
    (step : Beside operator own before happening after)
    (spares : ∀ audited, happening = .request audited → audited.cmd.Spares own owns)
    (agree : Agree other owns before.1.disk before.2.disk) : Agree other owns after.1.disk after.2.disk := by
  intro keyspace key belongs
  have same := agree keyspace key belongs
  have application := belongs_application belongs
  cases step with
  | @request server audited logId acted acted' spared only requests advances =>
    obtain ⟨writes,kind,applied,contents⟩ := advances.applied rfl
    have leaves := request_leaves ownName otherName distinct only requests (spares audited rfl) applied
    rw [contents keyspace application,
      commit_lookup_other _ _ fun write member table => leaves write member key (table ▸ belongs)]
    exact same
  | other actedAdvances sparedAdvances =>
    rcases actedAdvances.cases with ⟨audited,writes,kind,normal,applied,contents⟩ | ⟨blank,kept⟩ <;>
      rcases sparedAdvances.cases with ⟨audited',writes',kind',normal',applied',contents'⟩ | ⟨blank',kept'⟩
    · cases normal.symm.trans normal'
      rw [contents keyspace application,contents' keyspace application]
      exact command_determined applied applied' belongs same
    · exact absurd normal (blank' audited)
    · exact absurd normal' (blank audited')
    · rw [kept keyspace application,kept' keyspace application]
      exact same

/-- An operator whose requests spare another tenant's secrets and the rules changes nothing of that tenant. -/
theorem operator_does_not_interfere (ownName : TenantName own) (otherName : TenantName other) (distinct : own ≠ other)
    {start acted spared : Node} {trace : List (Transition (Node × Node) Happening)}
    (run : Run (Beside operator own) (start,start) trace (acted,spared))
    (spares : ∀ transition ∈ trace, ∀ audited, transition.label = .request audited → audited.cmd.Spares own owns) :
    Agree other owns acted.disk spared.disk ∧ ∀ key, owns key → ∀ decryptAtRest requesting,
      fetchSecret decryptAtRest acted.disk key requesting = fetchSecret decryptAtRest spared.disk key requesting := by
  have agree : Agree other owns acted.disk spared.disk := by
    refine (run.invariant (fun nodes => Agree other owns nodes.1.disk nodes.2.disk)
      (fun transition => ∀ audited, transition.label = .request audited → audited.cmd.Spares own owns)
      ?_ (fun _ _ _ => rfl) spares).2
    intro before happening after step meets agree
    exact beside_agree ownName otherName distinct step meets agree
  refine ⟨agree,fun key owned decryptAtRest requesting => ?_⟩
  exact fetchSecret_congr (agree _ _ (.acl owned)) (agree _ _ (.secret owned)) decryptAtRest requesting

end

end

section
open Reference Manifests

instance cronMessages : CronMessages where
  validateExpression _ := .ok ()
  encodeCronWorkload cron := asBytes cron.cronWorkloadId

def acmeGrant : OperatorAccessGrantRecord := ⟨"grant-1",malloryId.1,"",0,1800000000,false,false,["acme"]⟩

def betaApi : Identity := ⟨"spiffe://data.example.internal/ns/beta/sa/api",by decide⟩

def acmeWeb : Identity := ⟨"spiffe://data.example.internal/ns/acme/sa/web",by decide⟩

def acmeShop : WorkloadSpec :=
  { tenantId := "acme", workloadId := "shop", image := "shop:v1",
    replicas := (∅ : Std.ExtTreeMap String UInt32 compare).insert "web" 1 }

def betaStored : Node :=
  match (adminServer Disk.empty).storeSecret fleetctlProxy "req-1" .ok ⟨"beta","db-password",[1],[betaApi.1]⟩ with
  | .ok stored => (apply (boot Disk.empty) [⟨logIdAt 1,.normal stored⟩,commandAt 2 (.grantOperatorAccess acmeGrant)]).1
  | .error _ => boot Disk.empty

theorem mallory_writes_acme : (adminServer betaStored.disk).WritesOnly malloryId "acme" :=
  ⟨by decide,by decide,by decide +kernel⟩

theorem submitted_workload_spares_beta : ∃ audited,
    (adminServer betaStored.disk).submitWorkloadSpec (some malloryId) "req-2" acmeShop = .ok audited ∧
    Agree "beta" (fun _ => True) (apply betaStored [⟨logIdAt 3,.normal audited⟩]).1.disk betaStored.disk := by
  have accepted : ((adminServer betaStored.disk).submitWorkloadSpec (some malloryId) "req-2" acmeShop).isOk = true := by
    decide +kernel
  cases answer : (adminServer betaStored.disk).submitWorkloadSpec (some malloryId) "req-2" acmeShop with
  | error e =>
    rw [answer] at accepted
    cases accepted
  | ok audited =>
    have command := (AdminServer.submitWorkloadSpec_proposes answer).2.2
    have advances : Advances betaStored ⟨logIdAt 3,.normal audited⟩ (apply betaStored [⟨logIdAt 3,.normal audited⟩]).1 := by
      apply advances_apply
      obtain ⟨cmd,audit⟩ := audited
      cases command
      rfl
    have acme : TenantName "acme" := ⟨rfl,by decide⟩
    have beta : TenantName "beta" := ⟨rfl,by decide⟩
    refine ⟨audited,rfl,(operator_does_not_interfere acme beta (by decide)
      (.cons (.request mallory_writes_acme (.submitWorkloadSpec answer) advances) (.nil _)) ?_).1⟩
    intro transition member proposed label
    rw [mem_singleton.mp member] at label
    cases label
    rw [command]
    trivial

def secretGranted : Node :=
  match (adminServer betaStored.disk).grantSecretAccess (some malloryId) "req-2" ⟨"acme","db-password",acmeWeb.1⟩ with
  | .ok audited => (apply betaStored [⟨logIdAt 3,.normal audited⟩]).1
  | .error _ => betaStored

/-- The operator of `acme` lets a workload of `acme` read the secret that `beta` has stored. -/
theorem beta_secret_opened : (adminServer betaStored.disk).WritesOnly malloryId "acme" ∧
    ((adminServer betaStored.disk).grantSecretAccess (some malloryId) "req-2"
      ⟨"acme","db-password",acmeWeb.1⟩).isOk = true ∧
    fetchSecret .ok betaStored.disk "db-password" acmeWeb = .error (.accessDenied "db-password" acmeWeb.1) ∧
    fetchSecret .ok secretGranted.disk "db-password" acmeWeb = .ok [1] := by
  refine ⟨mallory_writes_acme,?_⟩
  decide +kernel

end

inductive AdminRpc where
  | createTenant | submitWorkloadSpec | getVpaStatus | listNodes | getClusterStatus | generateJoinToken
  | submitCronWorkload | upsertSagRule | deleteSagRule | storeSecret | grantSecretAccess | revokeSecretAccess
  | requestDelegatedKey | deleteWorkload | scaleWorkload | cordonNode | evictNode | setQuota | getQuota
  | grantOperatorAccess | revokeOperatorAccess | listOperatorAccess | listAuditLog | createNodePool | deleteNodePool
  | listNodePools | registerNodeEk | setPcrPolicy | revokeNodeEk | setNodeTaints | removeNodeTaint | apply
  deriving DecidableEq

/-- The four authorisation helpers, and `apply`, which asks once for each manifest. -/
inductive AdminScope where
  | readAccess | clusterAdmin | clusterAdminWrite | tenantWrite | eachManifest
  deriving DecidableEq

def AdminRpc.scope : AdminRpc → AdminScope
  | .createTenant | .generateJoinToken | .upsertSagRule | .deleteSagRule | .cordonNode | .evictNode | .setQuota
  | .grantOperatorAccess | .revokeOperatorAccess | .createNodePool | .deleteNodePool | .registerNodeEk | .setPcrPolicy
  | .revokeNodeEk | .setNodeTaints | .removeNodeTaint => .clusterAdminWrite
  | .submitWorkloadSpec | .submitCronWorkload | .storeSecret | .grantSecretAccess | .revokeSecretAccess
  | .deleteWorkload | .scaleWorkload => .tenantWrite
  | .getVpaStatus | .listNodes | .getClusterStatus | .getQuota | .listNodePools => .readAccess
  | .requestDelegatedKey | .listOperatorAccess | .listAuditLog => .clusterAdmin
  | .apply => .eachManifest

def AdminRpc.inspects : AdminRpc → Bool
  | .getVpaStatus | .listNodes | .getClusterStatus | .getQuota | .listNodePools | .listOperatorAccess
  | .listAuditLog => true
  | _ => false

section
variable [FleetosCore] [Formats]

structure AdminOutcome where
  proposals : List AuditedCommand
  keyMaterial : Option Bytes

def AdminOutcome.Harmless (outcome : AdminOutcome) : Prop := outcome.proposals = [] ∧ outcome.keyMaterial = none

/-- An operator that is not configured as an administrator, and whose active grants are all read-only. -/
structure AdminServer.ReadsOnly (server : AdminServer) (operator : SpiffeId) : Prop where
  kind : FleetosCore.kind operator = .operator
  plain : server.bootstrapAdmins.contains (display operator) = false
  grants : ∀ grant ∈ activeGrantsForOperator server.storage (display operator) server.now.toUInt64,
    grant.readOnly = true

namespace AdminServer
variable {server : AdminServer} {operator : SpiffeId}

section
variable (reads : server.ReadsOnly operator)
include reads

theorem ReadsOnly.writesOnly (tenantId : String) : server.WritesOnly operator tenantId := by
  refine ⟨reads.kind,reads.plain,?_⟩
  intro grant active writes
  rw [reads.grants grant active] at writes
  cases writes

theorem ReadsOnly.no_tenant (tenantId : String) :
    (server.requireTenantWrite (some operator) tenantId).isOk = false := by
  rw [← Bool.not_eq_true]
  intro write
  have same := (reads.writesOnly (tenantId ++ "-other")).tenant write
  have lengths := congrArg String.length same
  simp at lengths

theorem ReadsOnly.no_admin :
    (server.requireClusterAdminWrite (some operator)).isOk = false := (reads.writesOnly "").not_admin

theorem ReadsOnly.no_manifest [Merges] (manifest : Manifest) :
    server.authorizedFor (some operator) manifest = false := by
  unfold authorizedFor
  split
  · exact reads.no_admin
  · exact reads.no_tenant _

end

variable {requestId : String}

theorem ReadsOnly.apply_nothing [Merges] (reads : server.ReadsOnly operator) {req response}
    (ok : server.apply (some operator) requestId req = .ok response) :
    response.proposal = none := by
  obtain ⟨manifests,listed⟩ := apply_manifests ok
  cases proposed : response.proposal with
  | none => rfl
  | some audited =>
    obtain ⟨_,proposes⟩ := ((apply_answers listed ok).2.2 audited).mp proposed
    obtain ⟨update,made⟩ := List.exists_mem_of_ne_nil _ proposes.changes
    obtain ⟨manifest,member,_⟩ := mem_filterMap.mp made
    have authorized := (proposes.admitted manifest member).2
    rw [reads.no_manifest] at authorized
    cases authorized

theorem ReadsOnly.clusterAdmin_iff (reads : server.ReadsOnly operator) :
    server.requireClusterAdmin (some operator) = .ok () ↔
      ∃ grant ∈ activeGrantsForOperator server.storage (display operator) server.now.toUInt64,
        grant.clusterAdmin = true := by
  have plain := reads.plain
  unfold requireClusterAdmin
  simp only [callerSpiffeId,peerIdentity,Bind.bind,Except.bind,Pure.pure,Except.pure,reads.kind,plain,
    Bool.false_eq_true,if_false]
  rw [← List.any_eq_true]
  split <;> simp [*,permissionDenied]

variable [SpiffeParts] [ProofCore] [DelegatedKeyCore]

def CanIssue (server : AdminServer) (config : DelegationConfig) : Prop :=
  ∃ (req : DelegatedKeyRequest) (nodeId targetSvidId : SpiffeId) (bundle : TrustBundle) (key : DelegatedKeyBundle),
    parse req.nodeSvid = .ok nodeId ∧ parse req.targetSpiffeId = .ok targetSvidId ∧
    config.caDataControl = some bundle ∧
    issueDelegatedKey ⟨nodeId,targetSvidId,req.targetOrdinal,config.ttl req.requestedTtlSecs⟩ bundle server.storage
      config.issuedAt = .ok key

variable {config : DelegationConfig} {peer : Peer}

theorem requestDelegatedKey_ok {delegated} (ok : server.requestDelegatedKey config peer requestId req = .ok delegated) :
    server.requireClusterAdmin peer = .ok () ∧ server.CanIssue config := by
  obtain ⟨⟨request,bundle⟩,accepted,ok⟩ := bind_ok ok
  obtain ⟨key,issued,_⟩ := bind_ok ok
  obtain ⟨_,_,accepted⟩ := bind_ok accepted
  obtain ⟨_,admin,accepted⟩ := bind_ok accepted
  obtain ⟨nodeId,node,accepted⟩ := bind_ok accepted
  obtain ⟨targetSvidId,target,accepted⟩ := bind_ok accepted
  obtain ⟨bundle,ca,accepted⟩ := bind_ok accepted
  cases accepted
  have present : config.caDataControl = some bundle := by
    unfold DelegationConfig.requireCa at ca
    split at ca <;> cases ca
    assumption
  exact ⟨admin,req,nodeId,targetSvidId,bundle,key,mapError_ok.mp node,mapError_ok.mp target,present,mapError_ok.mp issued⟩

theorem requestDelegatedKey_of_admin (caller : verifyCaller peer = .ok ())
    (admin : server.requireClusterAdmin peer = .ok ()) (issues : server.CanIssue config) (requestId : String) :
    ∃ req delegated, server.requestDelegatedKey config peer requestId req = .ok delegated := by
  obtain ⟨req,nodeId,targetSvidId,bundle,key,node,target,present,issued⟩ := issues
  refine ⟨req,?_⟩
  simp [requestDelegatedKey,acceptRequest,caller,admin,node,target,DelegationConfig.requireCa,present,issued,Except.mapError,Bind.bind,
    Except.bind,Pure.pure,Except.pure]

variable [CronMessages] [WorkloadMessages] [Merges]

/-- The handlers that are not written out check the cluster-admin write scope first, or propose nothing. -/
inductive Serves (server : AdminServer) (config : DelegationConfig) (peer : Peer) : AdminRpc → AdminOutcome → Prop where
  | submitWorkloadSpec {requestId spec audited} : server.submitWorkloadSpec peer requestId spec = .ok audited →
      Serves server config peer .submitWorkloadSpec ⟨[audited],none⟩
  | deleteWorkload {requestId req audited} :
      server.deleteWorkload peer requestId req = .ok audited → Serves server config peer .deleteWorkload ⟨[audited],none⟩
  | scaleWorkload {requestId req audited} :
      server.scaleWorkload peer requestId req = .ok audited → Serves server config peer .scaleWorkload ⟨[audited],none⟩
  | submitCronWorkload {requestId cron audited} : server.submitCronWorkload peer requestId cron = .ok audited →
      Serves server config peer .submitCronWorkload ⟨[audited],none⟩
  | storeSecret {requestId : String} {encryptAtRest : Bytes → Except String Bytes} {req : StoreSecretRequest}
      {audited : AuditedCommand} : server.storeSecret peer requestId encryptAtRest req = .ok audited →
      Serves server config peer .storeSecret ⟨[audited],none⟩
  | grantSecretAccess {requestId req audited} : server.grantSecretAccess peer requestId req = .ok audited →
      Serves server config peer .grantSecretAccess ⟨[audited],none⟩
  | revokeSecretAccess {requestId req audited} : server.revokeSecretAccess peer requestId req = .ok audited →
      Serves server config peer .revokeSecretAccess ⟨[audited],none⟩
  | apply {requestId req response} :
      server.apply peer requestId req = .ok response → Serves server config peer .apply ⟨response.proposal.toList,none⟩
  | requestDelegatedKey {requestId req delegated} :
      server.requestDelegatedKey config peer requestId req = .ok delegated →
      Serves server config peer .requestDelegatedKey ⟨[delegated.proposal],some delegated.response.keyMaterial⟩
  | clusterAdminWrite {rpc : AdminRpc} {proposals : List AuditedCommand} : rpc.scope = .clusterAdminWrite →
      verifyCaller peer = .ok () → server.requireClusterAdminWrite peer = .ok () →
      Serves server config peer rpc ⟨proposals,none⟩
  | inspects {rpc : AdminRpc} : rpc.inspects = true → verifyCaller peer = .ok () → Serves server config peer rpc ⟨[],none⟩

theorem ReadsOnly.harmless_or_key (reads : server.ReadsOnly operator) {rpc outcome}
    (serves : server.Serves config (some operator) rpc outcome) :
    outcome.Harmless ∨ server.requireClusterAdmin (some operator) = .ok () ∧ server.CanIssue config := by
  have tenant : ∀ {tenantId}, server.requireTenantWrite (some operator) tenantId ≠ .ok () := by
    intro tenantId write
    have refused := reads.no_tenant tenantId
    rw [write] at refused
    cases refused
  cases serves with
  | submitWorkloadSpec ok => exact absurd (submitWorkloadSpec_proposes ok).1 tenant
  | deleteWorkload ok => exact absurd (deleteWorkload_proposes ok).1 tenant
  | scaleWorkload ok => exact absurd (scaleWorkload_proposes ok).1 tenant
  | submitCronWorkload ok => exact absurd (submitCronWorkload_proposes ok).1 tenant
  | storeSecret ok | grantSecretAccess ok | revokeSecretAccess ok =>
    obtain ⟨_,_,ok⟩ := bind_ok ok
    obtain ⟨_,write,_⟩ := bind_ok ok
    exact absurd write tenant
  | apply ok =>
    rw [reads.apply_nothing ok]
    exact .inl ⟨rfl,rfl⟩
  | requestDelegatedKey ok => exact .inr (requestDelegatedKey_ok ok)
  | clusterAdminWrite _ _ write =>
    have none := reads.no_admin
    rw [write] at none
    cases none
  | inspects => exact .inl ⟨rfl,rfl⟩

end AdminServer

/-- Read-only grants are harmless exactly if none has the cluster-admin scope, or there is no key to issue. -/
theorem read_only_harmless_iff [SpiffeParts] [ProofCore] [DelegatedKeyCore] [CronMessages] [WorkloadMessages] [Merges]
    {server : AdminServer} {operator : SpiffeId} (config : DelegationConfig) (reads : server.ReadsOnly operator) :
    (∀ rpc outcome, server.Serves config (some operator) rpc outcome → outcome.Harmless) ↔
      (∀ grant ∈ activeGrantsForOperator server.storage (display operator) server.now.toUInt64,
        grant.clusterAdmin = false) ∨ ¬server.CanIssue config := by
  constructor
  · intro harmless
    by_contra both
    push Not at both
    obtain ⟨⟨grant,active,scope⟩,issues⟩ := both
    have caller : verifyCaller (some operator) = .ok () := by
      simp [verifyCaller,peerIdentity,reads.kind,Bind.bind,Except.bind,Pure.pure,Except.pure]
    have admin := reads.clusterAdmin_iff.mpr ⟨grant,active,by simpa using scope⟩
    obtain ⟨req,delegated,ok⟩ := AdminServer.requestDelegatedKey_of_admin caller admin issues ""
    have none := (harmless _ _ (.requestDelegatedKey ok)).1
    cases none
  · intro refused rpc outcome serves
    rcases reads.harmless_or_key serves with harmless | ⟨admin,issues⟩
    · exact harmless
    · obtain ⟨grant,active,scope⟩ := reads.clusterAdmin_iff.mp admin
      rcases refused with unscoped | none
      · rw [unscoped grant active] at scope
        cases scope
      · exact absurd issues none

end

open Reference NoMessages

def auditorGrant (clusterAdmin : Bool) : OperatorAccessGrantRecord :=
  ⟨"grant-1",malloryId.1,"root",0,2000000000,clusterAdmin,true,["acme"]⟩

def auditorServer (clusterAdmin : Bool) : AdminServer where
  storage := commit hostedDisk [put .operatorGrants (asBytes "grant-1") (auditorGrant clusterAdmin)]
  bootstrapAdmins := []
  nodeTtlSecs := 86400
  now := 1700000000

def issuingConfig : DelegationConfig := ⟨some dataControl,14400,fun ttl => (ttl / 2).toInt64,1700000000,1700000000⟩

theorem tenant_auditor_harmless : (auditorServer false).ReadsOnly malloryId ∧
    ∀ rpc outcome, (auditorServer false).Serves issuingConfig (some malloryId) rpc outcome → outcome.Harmless := by
  have reads : (auditorServer false).ReadsOnly malloryId := ⟨by decide,by decide,by decide +kernel⟩
  exact ⟨reads,(read_only_harmless_iff issuingConfig reads).mpr (.inl (by decide +kernel))⟩

/-- A read-only cluster administrator is handed a signing key, and the delegation is proposed. -/
theorem cluster_auditor_given_key : (auditorServer true).ReadsOnly malloryId ∧
    ∃ delegated material, ∃ key : DelegatedSigningKey, fromBytes material = .ok key ∧ key.targetSvidId = shopId.1 ∧
      (auditorServer true).Serves issuingConfig (some malloryId) .requestDelegatedKey ⟨[delegated],some material⟩ := by
  have reads : (auditorServer true).ReadsOnly malloryId := ⟨by decide,by decide,by decide +kernel⟩
  have answered : (((auditorServer true).requestDelegatedKey issuingConfig (some malloryId) "req-1"
      ⟨hostId.1,shopId.1,some 0,0⟩).toOption.bind fun delegated =>
        (fromBytes (α := DelegatedSigningKey) delegated.response.keyMaterial).toOption).map (·.targetSvidId) =
          some shopId.1 := by decide +kernel
  obtain ⟨key,read,target⟩ := map_eq_some_iff.mp answered
  obtain ⟨delegated,served,decoded⟩ := Option.bind_eq_some_iff.mp read
  exact ⟨reads,delegated.proposal,_,key,toOption_eq_some.mp decoded,target,.requestDelegatedKey (toOption_eq_some.mp served)⟩

end FleetosControl
