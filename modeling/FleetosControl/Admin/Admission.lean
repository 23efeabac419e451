import FleetosControl.Apply.Baseline
import FleetosControl.Controllers.SpecWriters

/-! The bounds that a submission is held to. Nothing else checks them: scaling, cron runs, the
horizontal autoscaler and an apply each get around one. -/
namespace FleetosControl
open Wire KeyValue Trace Views

structure ReplicasAdmissible (replicas : Std.ExtTreeMap String UInt32 compare) : Prop where
  roles : replicas.size ≤ maxRolesPerWorkload
  named : ∀ (role : String) count, replicas[role]? = some count → validateIdentifier role "role" = .ok ()
  counts : ∀ (role : String) count, replicas[role]? = some count → 1 ≤ count.toNat ∧ count.toNat ≤ maxReplicasPerRole.toNat

structure WorkloadSpec.Admissible (spec : WorkloadSpec) : Prop where
  tenant : validateIdentifier spec.tenantId "tenant_id" = .ok ()
  workload : validateIdentifier spec.workloadId "workload_id" = .ok ()
  replicas : ReplicasAdmissible spec.replicas

theorem forM_ok {α ε : Type} {check : α → Except ε Unit} {items : List α} (ok : items.forM check = .ok ()) :
    ∀ item ∈ items, check item = .ok () := by
  induction items with
  | nil => simp
  | cons first items ih =>
    obtain ⟨_,passed,rest⟩ := bind_ok ok
    intro item member
    rcases mem_cons.mp member with rfl | later
    · exact passed
    · exact ih rest item later

theorem ReplicasAdmissible.of_valid {replicas : Std.ExtTreeMap String UInt32 compare}
    (roles : replicas.size ≤ maxRolesPerWorkload) (ok : validateReplicas replicas = .ok ()) :
    ReplicasAdmissible replicas := by
  have checked : ∀ (role : String) count, replicas[role]? = some count →
      validateIdentifier role "role" = .ok () ∧ 1 ≤ count.toNat ∧ count.toNat ≤ maxReplicasPerRole.toNat := by
    intro role count has
    have member := Std.ExtTreeMap.mem_toList_iff_getElem?_eq_some.mpr has
    obtain ⟨_,named,bounded⟩ := bind_ok (forM_ok ok _ member)
    refine ⟨named,?_⟩
    split at bounded
    · cases bounded
    case isFalse inside =>
      simp only [Bool.or_eq_true,decide_eq_true_eq,not_or,UInt32.not_lt] at inside
      have positive : count.toNat ≠ 0 := fun zero => inside.1 (UInt32.toNat_inj.mp zero)
      exact ⟨Nat.one_le_iff_ne_zero.mpr positive,UInt32.le_iff_toNat_le.mp inside.2⟩
  exact ⟨roles,fun role count has => (checked role count has).1,fun role count has => (checked role count has).2⟩

theorem distributed_admissible {desired : UInt32} (admissible : ReplicasAdmissible current)
    (share : ∀ (role : String) count, current[role]? = some count → replicaSum current ≤ desired.toNat * count.toNat ∧
      (desired ≤ maxReplicasPerRole ∨ desired.toNat * count.toNat < maxReplicasPerRole.toNat * replicaSum current)) :
    ReplicasAdmissible (distributeReplicas current desired) := by
  refine ⟨?_,?_,?_⟩
  · rw [distributeReplicas_size]
    exact admissible.roles
  · intro role given has
    obtain ⟨count,own,_⟩ := distributeReplicas_bounds has
    exact admissible.named role count own
  · intro role given has
    obtain ⟨count,own,least,most,total⟩ := distributeReplicas_bounds has
    obtain ⟨enough,limited⟩ := share role count own
    have some : 0 < replicaSum current := lt_of_lt_of_le (admissible.counts role count own).1 (count_le_replicaSum own)
    refine ⟨le_trans (Nat.div_pos enough some) least,?_⟩
    rcases limited with few | below
    · exact le_trans total (UInt32.le_iff_toNat_le.mp few)
    · exact le_trans most ((Nat.div_lt_iff_lt_mul some).mpr below)

section
variable [FleetosCore] [Formats] {stored : Stored} {spec : WorkloadSpec} {key : Bytes}

def Stored.Means : Stored → WorkloadSpec → Prop
  | .workload record, spec => decodeWorkloadSpec record.specBytes = .ok spec
  | .cron record, spec => storedSpec (toAllocvec record) = some spec
  | .applied bytes, spec => decodeWorkloadSpec bytes = .ok spec ∨ storedSpec bytes = some spec

def Stored.Admitted (stored : Stored) : Prop := ∀ spec, stored.Means spec → spec.Admissible

def Ledger.Admitted (ledger : Ledger) : Prop := ∀ (key : Bytes) stored, ledger[key]? = some stored → stored.Admitted

theorem Stored.means_of_read (read : storedSpec stored.bytes = some spec) : stored.Means spec := by
  cases stored with
  | workload record =>
    obtain ⟨same,decoded,spec⟩ := storedSpec_some.mp read
    rw [Stored.bytes,fromBytes_toAllocvec] at decoded
    cases decoded
    exact spec
  | cron record => exact read
  | applied bytes => exact .inr read

def AdmittedStore (node : Node) : Prop := ∃ ledger : Ledger, node.disk .workloads = ledger.contents ∧ ledger.Admitted

theorem AdmittedStore.reads (admitted : AdmittedStore node) (stored : (node.disk .workloads)[key]? = some bytes)
    (read : storedSpec bytes = some spec) : spec.Admissible := by
  obtain ⟨ledger,contents,every⟩ := admitted
  rw [contents,Ledger.contents_lookup] at stored
  obtain ⟨thing,filed,rfl⟩ := map_eq_some_iff.mp stored
  exact every key thing filed spec (Stored.means_of_read read)

theorem files_touches {cmd : FleetosCommand} (filed : cmd.Files key stored) : Keyspace.workloads ∈ cmd.touches := by
  cases filed <;> simp [touches]

variable [WorkloadMessages]

theorem AdminServer.submitWorkloadSpec_admits {server : AdminServer}
    (ok : server.submitWorkloadSpec peer requestId spec = .ok audited) : spec.Admissible := by
  obtain ⟨_,_,ok⟩ := bind_ok ok
  obtain ⟨_,_,ok⟩ := bind_ok ok
  obtain ⟨_,tenant,ok⟩ := bind_ok ok
  obtain ⟨_,workload,ok⟩ := bind_ok ok
  split at ok
  · cases ok
  split at ok
  · cases ok
  split at ok
  · cases ok
  case isFalse roles =>
    obtain ⟨_,replicas,_⟩ := bind_ok ok
    exact ⟨tenant,workload,.of_valid (Nat.not_lt.mp roles) replicas⟩

variable [Merges]

theorem updates_workload (made : (processManifest storage manifest).2 = some update)
    (target : manifestKeyspace update.targetKeyspace = some .workloads) : manifest.kind = "Workload" := by
  obtain ⟨keyspace,_,named,_⟩ := processManifest_update.mp made
  generalize update.targetKeyspace = name,update.targetKey = key at named target
  cases targets_of_target named with
  | workload kind => exact kind
  | _ => exact absurd target (by decide)

def SpecRequest.Bounded (view : Disk) : SpecRequest → Prop
  | .scale req => ReplicasAdmissible req.replicas
  | .cron record _ => (Stored.cron record).Admitted
  | .trigger definition template due => validateIdentifier definition.tenantId "tenant_id" = .ok () ∧
      validateIdentifier (definition.runWorkloadId due) "workload_id" = .ok () ∧ ReplicasAdmissible template.replicas
  | .hpa key desired => ∀ record spec, storedWorkload view key = some (record,spec) →
      ∀ (role : String) count, spec.replicas[role]? = some count →
        replicaSum spec.replicas ≤ desired.toNat * count.toNat ∧
        (desired ≤ maxReplicasPerRole ∨
          desired.toNat * count.toNat < maxReplicasPerRole.toNat * replicaSum spec.replicas)
  | .apply manifests => ∀ manifest ∈ manifests, manifest.kind = "Workload" → (processManifest view manifest).2 = none
  | _ => True

variable [CronMessages] [CronSchedules] [NameTypes]

theorem encoded_admitted {record : WorkloadSpecRecord}
    (encoded : record.specBytes = encodeWorkloadSpec spec) (admissible : spec.Admissible) :
    (Stored.workload record).Admitted := by
  intro read means
  rw [Stored.Means,encoded,WorkloadMessages.decode_encode] at means
  cases means
  exact admissible

theorem computed_admitted {commit : SpecCommit} (computed : commit.ComputedFrom view)
    (bounded : commit.request.Bounded view.disk) (admitted : AdmittedStore view)
    (filed : commit.entry.Files key stored) :
    stored.Admitted := by
  obtain ⟨⟨cmd,audit⟩,payload,files⟩ := filed
  have listed : ∀ {key bytes : Bytes} {record : WorkloadSpecRecord} {spec : WorkloadSpec},
      (view.disk .workloads)[key]? = some bytes → fromBytes bytes = .ok record →
      decodeWorkloadSpec record.specBytes = .ok spec → spec.Admissible :=
    fun found decoded read => admitted.reads found (storedSpec_some.mpr ⟨_,decoded,read⟩)
  cases computed with
  | submit _ accepted normal =>
    cases payload.symm.trans normal
    have command := (AdminServer.submitWorkloadSpec_proposes accepted).2.2
    simp only at command files
    subst command
    cases files
    exact encoded_admitted rfl (AdminServer.submitWorkloadSpec_admits accepted)
  | scale own accepted normal =>
    cases payload.symm.trans normal
    obtain ⟨_,bytes,record,spec,found,decoded,read,command⟩ := AdminServer.scaleWorkload_proposes accepted
    rw [own] at found
    have before := listed found decoded read
    simp only at command files
    subst command
    cases files
    exact encoded_admitted rfl ⟨before.tenant,before.workload,bounded⟩
  | delete _ accepted normal =>
    cases payload.symm.trans normal
    have command := (AdminServer.deleteWorkload_proposes accepted).2
    simp only at command files
    subst command
    cases files
  | cron _ _ submitted normal =>
    cases payload.symm.trans normal
    simp only at submitted files
    subst submitted
    cases files
    exact bounded
  | trigger _ _ _ _ normal =>
    cases payload.symm.trans normal
    simp only [CronWorkload.trigger] at files
    cases files
    obtain ⟨tenant,workload,replicas⟩ := bounded
    exact encoded_admitted rfl ⟨tenant,workload,replicas⟩
  | hpa found decoded read declared wanted proposed normal =>
    cases payload.symm.trans normal
    obtain ⟨spec,_,_,read',declared',wanted',_,command⟩ := HpaController.evaluateWorkload_proposes proposed
    cases read.symm.trans read'
    cases declared.symm.trans declared'
    cases wanted.symm.trans wanted'
    have before := listed found decoded read
    have shares := bounded _ _ (storedWorkload_some found decoded read)
    cases command
    cases files
    exact encoded_admitted rfl ⟨before.tenant,before.workload,distributed_admissible before.replicas shares⟩
  | vpa found decoded read _ normal =>
    cases payload.symm.trans normal
    have before := listed found decoded read
    cases files
    exact encoded_admitted rfl ⟨before.tenant,before.workload,before.replicas⟩
  | apply own answered proposed normal =>
    cases payload.symm.trans normal
    have proposes := ((apply_answers rfl answered).2.2 _).mp proposed |>.2
    cases proposes.command
    cases files with
    | update member target =>
      obtain ⟨manifest,asked,made⟩ := mem_filterMap.mp member
      have kind := updates_workload made target
      rw [own] at made
      exact absurd made (by simp [bounded manifest asked kind])
  | other apart => exact absurd (files_touches files) (apart cmd (command_normal payload))

def committed (trace : List (Committed Node SpecCommit)) : List (Transition Node Entry) :=
  trace.map fun transition =>
    ⟨transition.before.current,transition.label.command.entry,transition.after.current⟩

/-- In every run whose requests meet their conditions, everything stored is within the bounds of a submission. -/
theorem stored_specs_admissible {trace : List (Committed Node SpecCommit)} {last : History Node}
    (run : Run SpecStep (.fresh (boot Disk.empty)) trace last)
    (bounded : ∀ transition ∈ trace, transition.label.command.request.Bounded transition.label.view.disk) :
    (Ledger.after (committed trace)).Admitted ∧ ∀ spec ∈ decodedWorkloads last.current.disk, spec.Admissible := by
  have views := run_views run AdmittedStore (fun _ label => label.command.request.Bounded label.view.disk) ?_ ?_ bounded
  · have filed : (Ledger.after (committed trace)).Admitted := by
      intro key stored found
      obtain ⟨entry,member,files⟩ := Ledger.after_cases found
      obtain ⟨transition,own,rfl⟩ := mem_map.mp member
      obtain ⟨_,computed,_⟩ := (run.step_of_mem transition own).cases
      exact computed_admitted computed (bounded transition own) (views transition own) files
    have entries := run_current SpecCommit.entry
      (fun before commit after (taken : Advances before commit.entry after) => taken) run
    have refined := Ledger.after_refines entries
    refine ⟨filed,fun spec member => ?_⟩
    obtain ⟨key,bytes,found,read⟩ := mem_decodedWorkloads.mp member
    exact AdmittedStore.reads ⟨_,refined,filed⟩ found read
  · rintro current label next ⟨ledger,contents,every⟩ seen computed advances met
    refine ⟨ledger.fileEntry label.command.entry,Ledger.fileEntry_refines contents advances,?_⟩
    intro key stored found
    rcases Ledger.fileEntry_cases found with kept | filed
    · exact every key stored kept
    · exact computed_admitted computed met seen filed
  · intro view seen
    rw [History.seen_fresh] at seen
    exact ⟨∅,by simp [seen,Disk.empty,Ledger.contents],by simp [Ledger.Admitted]⟩

end

section
open scoped Manifests
variable [FleetosCore] [WorkloadMessages] [ManifestMessages] [Formats]

/-- An apply that creates a workload leaves a message without a tenant or a name, and admission takes neither. -/
theorem created_unnamed {storage manifest update} (made : (processManifest storage manifest).2 = some update)
    (target : manifestKeyspace update.targetKeyspace = some .workloads) (missing : manifest.live storage = none) :
    ∃ spec, decodeWorkloadSpec update.newRecordBytes = .ok spec ∧
      validateIdentifier spec.tenantId "tenant_id" = invalidArgument "tenant_id must be 1-63 characters" ∧
      validateIdentifier spec.workloadId "workload_id" = invalidArgument "workload_id must be 1-63 characters" := by
  have kind := updates_workload made target
  obtain ⟨keyspace,bytes,named,merged,rfl⟩ := processManifest_update.mp made
  rw [← live_eq named,missing] at merged
  generalize update.newRecordBytes = bytes at merged ⊢
  cases merge_updated merged with
  | workload => exact ⟨_,WorkloadMessages.decode_encode _,rfl,rfl⟩
  | sagRule other => exact absurd (kind.symm.trans other) (by decide)
  | secret other => exact absurd (kind.symm.trans other) (by decide)
  | nodePool other => exact absurd (kind.symm.trans other) (by decide)

end

open Reference NoMessages

open Manifests in
theorem created_shop_unnamed : ∃ update spec, (processManifest Disk.empty (shopImage "v1")).2 = some update ∧
    decodeWorkloadSpec update.newRecordBytes = .ok spec ∧ (validateIdentifier spec.tenantId "tenant_id").toBool = false := by
  have made : (processManifest Disk.empty (shopImage "v1")).2 = some _ := rfl
  obtain ⟨spec,decoded,refused,_⟩ := created_unnamed made rfl rfl
  exact ⟨_,spec,made,decoded,by rw [refused]; rfl⟩

theorem scaled_shop_admissible : webShop 3 ∈ decodedWorkloads (takenNext shopKept 2 (scaledTo 3)).disk ∧
    ∀ spec ∈ decodedWorkloads (takenNext shopKept 2 (scaledTo 3)).disk, spec.Admissible := by
  have run : Run SpecStep (.fresh (boot Disk.empty)) [shopSubmitted,shopScaled 3] (shopScaled 3).after :=
    .cons shopSubmitted_step (.cons (shopScaled_step 3) (.nil _))
  refine ⟨by decide +kernel,(stored_specs_admissible run ?_).2⟩
  intro transition member
  simp only [mem_cons,not_mem_nil,or_false] at member
  rcases member with rfl | rfl
  · trivial
  · exact .of_valid (by decide +kernel) rfl

theorem shop_scaled_to_nothing :
    Run SpecStep (.fresh (boot Disk.empty)) [shopSubmitted,shopScaled 0] (shopScaled 0).after ∧
    webShop 0 ∈ decodedWorkloads (shopScaled 0).after.current.disk ∧ ¬(webShop 0).Admissible := by
  refine ⟨.cons shopSubmitted_step (.cons (shopScaled_step 0) (.nil _)),by decide +kernel,?_⟩
  intro admissible
  exact absurd (admissible.replicas.counts "web" 0 (by decide +kernel)).1 (by decide)

end FleetosControl
