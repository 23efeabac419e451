import FleetosControl.Apply.Merge
import FleetosControl.Raft.Proposals

/-! Which manifests of a batch are answered, which are written, when the batch is proposed at all,
and who may commit changes to cluster-scoped objects. -/
namespace FleetosControl
open KeyValue

def Versioned [Merges] (manifest : Manifest) : Prop := manifest.apiVersion = "fleetos.dev/v1alpha1"

instance [Merges] (manifest : Manifest) : Decidable (Versioned manifest) := inferInstanceAs (Decidable (_ = _))

/-- The name a spec answers to, which `kind` should repeat. -/
def ManifestSpec.kind [Merges] : ManifestSpec → String
  | .workload _ => "Workload"
  | .tenant => "Tenant"
  | .sagRule _ => "SagRule"
  | .secret _ => "Secret"
  | .nodePool _ => "NodePool"

section
variable [FleetosCore] [Formats] [Merges] {manifest : Manifest} {server : AdminServer} {peer : Peer}

def Conflicts (storage : Disk) (manifest : Manifest) : Prop := (processManifest storage manifest).1.status = .conflict

instance (storage : Disk) (manifest : Manifest) : Decidable (Conflicts storage manifest) :=
  inferInstanceAs (Decidable (_ = _))

theorem processManifest_update : (processManifest storage manifest).2 = some update ↔ ∃ keyspace, ∃ bytes,
      manifest.target = some (keyspace,update.targetKeyspace,update.targetKey) ∧
      manifest.merge ((storage keyspace)[update.targetKey]?.getD []) [] = .updated bytes ∧
      update.newRecordBytes = bytes := by
  unfold processManifest
  split
  case h_1 none => simp [none]
  case h_2 keyspace name key target =>
    split
    case h_1 bytes merged =>
      constructor
      · rintro ⟨⟩
        exact ⟨keyspace,bytes,target,merged,rfl⟩
      · rintro ⟨_,_,target',merged',rfl⟩
        obtain ⟨rfl,rfl,rfl⟩ : keyspace = _ ∧ name = _ ∧ key = _ := by simpa using target.symm.trans target'
        cases merged.symm.trans merged'
        rfl
    all_goals
      case _ merged =>
        constructor
        · rintro ⟨⟩
        · rintro ⟨_,_,target',merged',rfl⟩
          obtain ⟨rfl,rfl,rfl⟩ : keyspace = _ ∧ name = _ ∧ key = _ := by simpa using target.symm.trans target'
          cases merged.symm.trans merged'

theorem processManifest_congr (same : ∀ keyspace name key, manifest.target = some (keyspace,name,key) →
      (left keyspace)[key]? = (right keyspace)[key]?) : processManifest left manifest = processManifest right manifest := by
  unfold processManifest
  split
  · rfl
  case h_2 keyspace name key target => rw [same keyspace name key target]

namespace AdminServer

def Admits (server : AdminServer) (peer : Peer) (manifest : Manifest) : Prop :=
  Versioned manifest ∧ server.authorizedFor peer manifest = true

instance (server : AdminServer) (peer : Peer) (manifest : Manifest) : Decidable (server.Admits peer manifest) :=
  inferInstanceAs (Decidable (_ ∧ _))

def reported (server : AdminServer) (peer : Peer) (manifest : Manifest) : Option ApplyResult :=
  if ¬Versioned manifest then some (manifest.result .invalid [])
  else if server.Admits peer manifest then some (processManifest server.storage manifest).1
  else none

def updateOf (server : AdminServer) (peer : Peer) (manifest : Manifest) : Option ManifestUpdate :=
  if server.Admits peer manifest then (processManifest server.storage manifest).2 else none

theorem addManifest_eq (server : AdminServer) (peer : Peer) (batch : ApplyBatch) (manifest : Manifest) :
    server.addManifest peer batch manifest =
      ⟨batch.results ++ (server.reported peer manifest).toList,batch.updates ++ (server.updateOf peer manifest).toList,
        batch.anyConflict || decide (server.Admits peer manifest ∧ Conflicts server.storage manifest),
        batch.anyInvalid || decide ¬server.Admits peer manifest⟩ := by
  unfold addManifest reported updateOf
  by_cases versioned : Versioned manifest
  · have version : manifest.apiVersion = "fleetos.dev/v1alpha1" := versioned
    by_cases authorized : server.authorizedFor peer manifest = true
    · have admitted : server.Admits peer manifest := ⟨versioned,authorized⟩
      simp [version,authorized,versioned,admitted,Conflicts]
    · have refused : ¬server.Admits peer manifest := fun admitted => authorized admitted.2
      simp [version,authorized,versioned,refused]
  · have version : manifest.apiVersion ≠ "fleetos.dev/v1alpha1" := versioned
    have refused : ¬server.Admits peer manifest := fun admitted => versioned admitted.1
    simp [version,versioned,refused]

theorem addManifests_eq (server : AdminServer) (peer : Peer) (manifests : List Manifest) (batch : ApplyBatch) :
    manifests.foldl (server.addManifest peer) batch = ⟨batch.results ++ manifests.filterMap (server.reported peer),
        batch.updates ++ manifests.filterMap (server.updateOf peer),
        batch.anyConflict || manifests.any fun manifest =>
          decide (server.Admits peer manifest ∧ Conflicts server.storage manifest),
        batch.anyInvalid || manifests.any fun manifest => decide ¬server.Admits peer manifest⟩ := by
  induction manifests generalizing batch with
  | nil => simp
  | cons manifest manifests ih =>
    rw [List.foldl_cons,ih,addManifest_eq]
    cases reported : server.reported peer manifest <;> cases update : server.updateOf peer manifest <;>
      simp [reported,update,Bool.or_assoc]

structure Proposes (server : AdminServer) (peer : Peer) (requestId : String) (manifests : List Manifest)
    (audited : AuditedCommand) : Prop where
  admitted : ∀ manifest ∈ manifests, server.Admits peer manifest
  agreed : ∀ manifest ∈ manifests, ¬Conflicts server.storage manifest
  changes : manifests.filterMap (fun manifest => (processManifest server.storage manifest).2) ≠ []
  command : audited = ⟨.applyManifests (manifests.filterMap fun manifest => (processManifest server.storage manifest).2),
    some (server.buildAuditContext peer requestId "apply")⟩

variable {server : AdminServer} {peer : Peer} {manifests : List Manifest} {requestId : String} {req : ApplyRequest}
  {response : ApplyResponse}

theorem updateOf_admitted (admitted : ∀ manifest ∈ manifests, server.Admits peer manifest) :
    manifests.filterMap (server.updateOf peer) =
      manifests.filterMap fun manifest => (processManifest server.storage manifest).2 := by
  apply List.filterMap_congr
  intro manifest member
  exact if_pos (admitted manifest member)

theorem apply_manifests (ok : server.apply peer requestId req = .ok response) :
    ∃ manifests, req.manifestList = some manifests := by
  obtain ⟨_,_,ok⟩ := bind_ok ok
  cases listed : req.manifestList with
  | none =>
    rw [listed] at ok
    cases ok
  | some manifests => exact ⟨manifests,rfl⟩

theorem apply_answers (listed : req.manifestList = some manifests) (ok : server.apply peer requestId req = .ok response) :
    verifyCaller peer = .ok () ∧ response.results = manifests.filterMap (server.reported peer) ∧
      ∀ audited, response.proposal = some audited ↔
        req.dryRun = false ∧ server.Proposes peer requestId manifests audited := by
  obtain ⟨_,caller,ok⟩ := bind_ok ok
  refine ⟨caller,?_⟩
  rw [listed] at ok
  simp only [addManifests_eq,List.nil_append,Bool.false_or] at ok
  split at ok
  case isTrue held =>
    cases ok
    refine ⟨rfl,fun audited => ⟨fun none => (nomatch none),fun ⟨wet,proposes⟩ => ?_⟩⟩
    simp only [Bool.or_eq_true,List.any_eq_true,decide_eq_true_eq,List.isEmpty_iff] at held
    rcases held with ((⟨manifest,member,refused⟩ | ⟨manifest,member,_,conflict⟩) | dry) | empty
    · exact absurd (proposes.admitted manifest member) refused
    · exact absurd conflict (proposes.agreed manifest member)
    · rw [wet] at dry
      cases dry
    · rw [updateOf_admitted proposes.admitted] at empty
      exact absurd empty proposes.changes
  case isFalse free =>
    cases ok
    simp only [Bool.or_eq_true,List.any_eq_true,decide_eq_true_eq,List.isEmpty_iff,not_or,not_exists,not_and,
      Classical.not_not] at free
    obtain ⟨⟨⟨admitted,agreed⟩,wet⟩,changes⟩ := free
    have updates := updateOf_admitted admitted
    refine ⟨rfl,fun audited => ⟨?_,?_⟩⟩
    · rintro ⟨⟩
      exact ⟨by simpa using wet,admitted,fun manifest member => agreed manifest member (admitted manifest member),
        updates ▸ changes,by rw [updates]⟩
    · rintro ⟨_,proposes⟩
      rw [proposes.command,updates]

theorem apply_listed (server : AdminServer) (caller : verifyCaller peer = .ok ()) (requestId : String)
    (manifests : List Manifest) (dryRun : Bool) :
    ∃ response, server.apply peer requestId ⟨some manifests,dryRun⟩ = .ok response := by
  unfold apply
  simp only [caller,Bind.bind,Except.bind]
  split <;> exact ⟨_,rfl⟩

def Rejects (server : AdminServer) (peer : Peer) (manifest : Manifest) : Prop :=
  ¬Versioned manifest ∨ manifest.target = none ∨ (∃ spec, manifest.spec = some spec ∧ spec.kind ≠ manifest.kind) ∨
    server.authorizedFor peer manifest = false ∨ Conflicts server.storage manifest

end AdminServer

export AdminServer (apply_answers)

def ApplyResult.names (result : ApplyResult) : String × String × String := (result.kind,result.name,result.tenantId)

def Manifest.names (manifest : Manifest) : String × String × String := (manifest.kind,manifest.name,manifest.tenantId)

theorem processManifest_names (storage : Disk) (manifest : Manifest) :
    (processManifest storage manifest).1.names = manifest.names := by
  unfold processManifest
  split
  · rfl
  · split <;> rfl

theorem reported_names (reported : server.reported peer manifest = some result) : result.names = manifest.names := by
  unfold AdminServer.reported at reported
  split at reported
  · cases reported
    rfl
  split at reported
  · cases reported
    exact processManifest_names _ _
  · cases reported

theorem reported_isSome :
    (server.reported peer manifest).isSome ↔ (Versioned manifest → server.authorizedFor peer manifest = true) := by
  unfold AdminServer.reported AdminServer.Admits
  by_cases versioned : Versioned manifest <;> by_cases authorized : server.authorizedFor peer manifest = true <;>
    simp [versioned,authorized]

theorem filterMap_names {α β γ : Type} {said : α → Option β} {name : α → γ} {named : β → γ}
    (same : ∀ item result, said item = some result → named result = name item) (items : List α) :
    (items.filterMap said).map named = items.map name ↔ ∀ item ∈ items, (said item).isSome := by
  constructor
  · intro all
    have lengths : (items.filterMap said).length = items.length := by simpa using congrArg List.length all
    intro item member
    exact List.filterMap_length_eq_length.mp lengths item member
  · intro all
    induction items with
    | nil => rfl
    | cons item items ih =>
      obtain ⟨result,found⟩ := Option.isSome_iff_exists.mp (all item mem_cons_self)
      have rest := ih fun later member => all later (mem_cons_of_mem _ member)
      rw [List.filterMap_cons_some found,List.map_cons,List.map_cons,rest,same item result found]

def AdminServer.HeldBack (server : AdminServer) (req : ApplyRequest) (manifests : List Manifest) : Prop :=
  req.dryRun = true ∨ (∃ manifest ∈ manifests, ¬Versioned manifest) ∨
    (∃ manifest ∈ manifests, Conflicts server.storage manifest) ∨
    ∀ manifest ∈ manifests, (processManifest server.storage manifest).2 = none

/-- Held back exactly if nothing is unauthorised and the handler looks at one of the reasons. -/
theorem rejected_batch_held_iff {server : AdminServer} {peer : Peer} {requestId : String} {req : ApplyRequest}
    {response : AdminServer.ApplyResponse} {manifests : List Manifest} (listed : req.manifestList = some manifests)
    (ok : server.apply peer requestId req = .ok response) :
    ((∃ manifest ∈ manifests, server.Rejects peer manifest) →
      response.proposal = none ∧ response.results.map ApplyResult.names = manifests.map Manifest.names) ↔
    ((∃ manifest ∈ manifests, server.Rejects peer manifest) →
      (∀ manifest ∈ manifests, Versioned manifest → server.authorizedFor peer manifest = true) ∧
        server.HeldBack req manifests) := by
  obtain ⟨_,results,proposal⟩ := apply_answers listed ok
  have names : ∀ manifest result, server.reported peer manifest = some result → result.names = manifest.names :=
    fun _ _ => reported_names
  apply imp_congr_right
  intro _
  rw [results,filterMap_names names]
  simp only [reported_isSome]
  rw [and_comm]
  apply and_congr_right
  intro authorized
  rw [Option.eq_none_iff_forall_ne_some]
  constructor
  · intro none
    by_contra free
    unfold AdminServer.HeldBack at free
    push Not at free
    obtain ⟨wet,versioned,agreed,manifest,member,changed⟩ := free
    refine none _ ((proposal _).mpr ⟨by simpa using wet,?_,agreed,?_,rfl⟩)
    · exact fun manifest member => ⟨versioned manifest member,authorized manifest member (versioned manifest member)⟩
    · intro empty
      exact changed (List.filterMap_eq_nil_iff.mp empty manifest member)
  · intro held audited proposed
    obtain ⟨wet,proposes⟩ := (proposal audited).mp proposed
    rcases held with dry | ⟨manifest,member,unversioned⟩ | ⟨manifest,member,conflict⟩ | unchanged
    · rw [wet] at dry
      cases dry
    · exact unversioned (proposes.admitted manifest member).1
    · exact proposes.agreed manifest member conflict
    · exact proposes.changes (List.filterMap_eq_nil_iff.mpr unchanged)

end

section
open Reference Manifests

def workloadManifest (tenantId name : String) (spec : ManifestWorkloadSpec) : Manifest :=
  ⟨"fleetos.dev/v1alpha1","Workload",name,tenantId,some (.workload spec)⟩

def shopImage (image : String) : Manifest := workloadManifest "acme" "shop" { image := some image }

def oldVersion : Manifest := { shopImage "shop:v1" with apiVersion := "fleetos.dev/v1" }

def unknownKind : Manifest := { shopImage "shop:v1" with kind := "Deployment", name := "web" }

def malloryId : Identity := ⟨"spiffe://admin.example.internal/ns/system/operator/mallory",by decide⟩

theorem old_version_held_back :
    (∃ response, (adminServer Disk.empty).apply fleetctlProxy "req-1" ⟨some [shopImage "shop:v1",oldVersion],false⟩ =
      .ok response ∧ response.proposal = none ∧
      response.results.map ApplyResult.names = [shopImage "shop:v1",oldVersion].map Manifest.names) := by
  have caller : verifyCaller fleetctlProxy = .ok () := rfl
  obtain ⟨response,ok⟩ := (adminServer Disk.empty).apply_listed caller "req-1" [shopImage "shop:v1",oldVersion] false
  refine ⟨response,ok,(rejected_batch_held_iff rfl ok).mpr ?_ ?_⟩
  · intro _
    exact ⟨by decide,.inr (.inl ⟨oldVersion,by simp,by decide⟩)⟩
  · exact ⟨oldVersion,by simp,.inl (by decide)⟩

/-- The batch is committed in spite of its unknown kind, and a caller without a grant gets no status at all. -/
theorem unknown_kind_committed : (adminServer Disk.empty).Rejects fleetctlProxy unknownKind ∧
    ((adminServer Disk.empty).apply fleetctlProxy "req-1" ⟨some [unknownKind,shopImage "shop:v1"],false⟩).toOption.any
      (fun response => response.proposal.isSome) ∧
    ((adminServer Disk.empty).apply (some malloryId) "req-2" ⟨some [shopImage "shop:v1"],false⟩).toOption.any
      (fun response => response.results.isEmpty) := by
  refine ⟨.inr (.inl (by decide)),?_,?_⟩ <;> decide +kernel

end

def ManifestUpdate.ClusterScoped (update : ManifestUpdate) : Prop :=
  update.targetKeyspace ∈ ["tenants","sag_rules","node_pools"]

section
variable [FleetosCore] [Formats] [Merges]

/-- What is committed to cluster-scoped objects, a cluster administrator has asked for. -/
def AdminOnly (req : ApplyRequest) : Prop :=
  ∀ (server : AdminServer) (peer : Peer) (requestId : String) (response : AdminServer.ApplyResponse)
    (audited : AuditedCommand) (updates : List ManifestUpdate), server.apply peer requestId req = .ok response →
    response.proposal = some audited → audited.cmd = .applyManifests updates →
    (∃ update ∈ updates, update.ClusterScoped) → (server.requireClusterAdminWrite peer).isOk = true

/-- In this store the request changes a rule or a node pool, if its sender may write what it names. -/
structure ChangesCluster (req : ApplyRequest) (manifests : List Manifest) (storage : Disk) : Prop where
  wet : req.dryRun = false
  listed : req.manifestList = some manifests
  versioned : ∀ manifest ∈ manifests, Versioned manifest
  agreed : ∀ manifest ∈ manifests, ¬Conflicts storage manifest
  changes : ∃ manifest ∈ manifests, (manifest.kind = "SagRule" ∨ manifest.kind = "NodePool") ∧
    (processManifest storage manifest).2.isSome = true

/-- Tenants are never updated, so a cluster-scoped update comes from a rule or a node pool. -/
theorem clusterScoped_iff (made : (processManifest storage manifest).2 = some update) :
    update.ClusterScoped ↔ manifest.kind = "SagRule" ∨ manifest.kind = "NodePool" := by
  obtain ⟨keyspace,bytes,target,merged,_⟩ := processManifest_update.mp made
  obtain ⟨targetKeyspace,targetKey,newRecordBytes⟩ := update
  cases targets_of_target target with
  | tenant kind =>
    unfold Manifest.merge at merged
    rw [kind] at merged
    cases spec : manifest.spec with
    | none => simp [spec] at merged
    | some given => cases given <;> simp [spec,mergeTenant] at merged
  | workload kind | sagRule kind | secret kind | nodePool kind => simp [ManifestUpdate.ClusterScoped,kind]

def NamesClusterObject (manifests : List Manifest) : Prop := ∃ manifest ∈ manifests, manifest.tenantId = ""

theorem guarded_of_named {server : AdminServer} {manifests}
    (admitted : ∀ manifest ∈ manifests, server.Admits peer manifest) (named : NamesClusterObject manifests) :
    (server.requireClusterAdminWrite peer).isOk = true := by
  obtain ⟨manifest,member,blank⟩ := named
  have authorized := (admitted manifest member).2
  unfold AdminServer.authorizedFor at authorized
  rwa [blank,if_pos (by decide)] at authorized

section
variable (storage : Disk) (operator : SpiffeId) (tenants : List String) {manifests : List Manifest}

def tenantGrant : OperatorAccessGrantRecord := ⟨"grant",display operator,"",0,1,false,false,tenants⟩

def operatorServer : AdminServer where
  storage keyspace := if keyspace = .operatorGrants then
    (∅ : Contents).insert (asBytes "grant") (toAllocvec (tenantGrant operator tenants)) else storage keyspace
  bootstrapAdmins := []
  nodeTtlSecs := 0
  now := 0

theorem operatorServer_grants : activeGrantsForOperator (operatorServer storage operator tenants).storage
    (display operator) 0 = [tenantGrant operator tenants] := by
  simp [activeGrantsForOperator,scanRecords,operatorServer,toList_single,Except.toOption,tenantGrant]

theorem operatorServer_process (manifest : Manifest) :
    processManifest (operatorServer storage operator tenants).storage manifest = processManifest storage manifest := by
  apply processManifest_congr
  intro keyspace name key target
  have other : keyspace ≠ .operatorGrants := by
    cases targets_of_target target <;> decide
  simp only [operatorServer,if_neg other]

variable {operator} (kind : FleetosCore.kind operator = .operator)
include kind

theorem operatorServer_not_admin :
    ((operatorServer storage operator tenants).requireClusterAdminWrite (some operator)).isOk = false := by
  have grants := operatorServer_grants storage operator tenants
  have now : (operatorServer storage operator tenants).now.toUInt64 = 0 := rfl
  have admins : (operatorServer storage operator tenants).bootstrapAdmins = [] := rfl
  simp [AdminServer.requireClusterAdminWrite,callerIsCtrl,callerSpiffeId,peerIdentity,kind,now,admins,grants,tenantGrant,
    permissionDenied,Bind.bind,Except.bind,Pure.pure,Except.pure,Except.isOk,Except.toBool]

theorem operatorServer_writes (granted : tenantId ∈ tenants) :
    ((operatorServer storage operator tenants).requireTenantWrite (some operator) tenantId).isOk = true := by
  have grants := operatorServer_grants storage operator tenants
  have now : (operatorServer storage operator tenants).now.toUInt64 = 0 := rfl
  simp [AdminServer.requireTenantWrite,callerIsCtrl,callerSpiffeId,peerIdentity,kind,now,grants,tenantGrant,granted,
    Bind.bind,Except.bind,Pure.pure,Except.pure,Except.isOk,Except.toBool]

theorem operatorServer_admits (unnamed : ¬NamesClusterObject manifests) (member : manifest ∈ manifests)
    (versioned : Versioned manifest) :
    (operatorServer storage operator (manifests.map (·.tenantId))).Admits (some operator) manifest := by
  have named : manifest.tenantId ≠ "" := fun blank => unnamed ⟨manifest,member,blank⟩
  refine ⟨versioned,?_⟩
  unfold AdminServer.authorizedFor
  rw [if_neg (by simpa using named)]
  exact operatorServer_writes storage _ kind (List.mem_map_of_mem member)

theorem operatorServer_commits (changes : ChangesCluster req manifests storage)
    (unnamed : ¬NamesClusterObject manifests) :
    ∃ response audited updates,
      (operatorServer storage operator (manifests.map (·.tenantId))).apply (some operator) "" req = .ok response ∧
      response.proposal = some audited ∧ audited.cmd = .applyManifests updates ∧
      ∃ update ∈ updates, update.ClusterScoped := by
  have caller : verifyCaller (some operator) = .ok () := by
    simp [verifyCaller,peerIdentity,kind,Bind.bind,Except.bind,Pure.pure,Except.pure]
  have request : req = ⟨some manifests,false⟩ := by
    rw [← changes.listed,← changes.wet]
  have process := operatorServer_process storage operator (manifests.map (·.tenantId))
  obtain ⟨manifest,member,cluster,changed⟩ := changes.changes
  obtain ⟨update,made⟩ := Option.isSome_iff_exists.mp changed
  obtain ⟨response,ok⟩ :=
    (operatorServer storage operator (manifests.map (·.tenantId))).apply_listed caller "" manifests false
  have written : update ∈ manifests.filterMap fun manifest =>
      (processManifest (operatorServer storage operator (manifests.map (·.tenantId))).storage manifest).2 :=
    mem_filterMap.mpr ⟨manifest,member,by rw [process,made]⟩
  have agreed : ∀ manifest ∈ manifests,
      ¬Conflicts (operatorServer storage operator (manifests.map (·.tenantId))).storage manifest := by
    intro manifest member
    unfold Conflicts
    rw [process]
    exact changes.agreed manifest member
  have admitted := fun manifest member =>
    operatorServer_admits storage kind unnamed member (changes.versioned manifest member)
  have proposed := ((apply_answers rfl ok).2.2 _).mpr
    ⟨rfl,admitted,agreed,List.ne_nil_of_mem written,rfl⟩
  exact ⟨response,_,_,request ▸ ok,proposed,rfl,update,written,(clusterScoped_iff made).mpr cluster⟩

end

/-- The tenant fields of the manifests decide who may change cluster-scoped objects. -/
theorem cluster_updates_guarded_iff (operator : SpiffeId) (kind : FleetosCore.kind operator = .operator)
    (req : ApplyRequest) :
    AdminOnly req ↔ ∀ manifests storage, ChangesCluster req manifests storage → NamesClusterObject manifests := by
  constructor
  · intro guarded manifests storage changes
    by_contra unnamed
    obtain ⟨response,audited,updates,ok,proposed,command,cluster⟩ := operatorServer_commits storage kind changes unnamed
    have admin := guarded _ (some operator) "" response audited updates ok proposed command cluster
    rw [operatorServer_not_admin storage _ kind] at admin
    cases admin
  · intro safe server peer requestId response audited updates ok proposed command cluster
    obtain ⟨manifests,listed⟩ := AdminServer.apply_manifests ok
    obtain ⟨wet,proposes⟩ := ((apply_answers listed ok).2.2 audited).mp proposed
    rw [proposes.command] at command
    cases command
    obtain ⟨update,member,scope⟩ := cluster
    obtain ⟨manifest,inside,made⟩ := mem_filterMap.mp member
    refine guarded_of_named proposes.admitted (safe manifests server.storage ⟨wet,listed,?_,proposes.agreed,?_⟩)
    · exact fun manifest member => (proposes.admitted manifest member).1
    · exact ⟨manifest,inside,(clusterScoped_iff made).mp scope,by rw [made]; rfl⟩

end

open Reference Manifests

def ruleManifest (tenantId : String) : Manifest :=
  ⟨"fleetos.dev/v1alpha1","SagRule","allow-all",tenantId,some (.sagRule { action := some 1 })⟩

theorem rule_without_tenant_admin_only : AdminOnly ⟨some [ruleManifest ""],false⟩ := by
  refine (cluster_updates_guarded_iff malloryId (by decide) _).mpr ?_
  intro manifests storage changes
  cases changes.listed
  exact ⟨ruleManifest "",mem_singleton_self _,rfl⟩

theorem tenant_operator_commits_rule : ((operatorServer Disk.empty malloryId ["acme"]).apply (some malloryId) "req-1"
      ⟨some [ruleManifest "acme"],false⟩).toOption.any (fun response => response.proposal.any fun audited =>
        match audited.cmd with
        | .applyManifests updates => updates.any fun update => update.targetKeyspace = "sag_rules"
        | _ => false) ∧
    ((operatorServer Disk.empty malloryId ["acme"]).requireClusterAdminWrite (some malloryId)).isOk = false := by
  refine ⟨?_,?_⟩ <;> decide +kernel

end FleetosControl
