import FleetosControl.Apply.Batch
import Mathlib.Data.List.Induction

/-! A batch of manifests against the same manifests one at a time. Within a batch every merge reads
the store from before the batch. -/
namespace FleetosControl
open Wire KeyValue

theorem SameApplication.trans (left : SameApplication first second) (right : SameApplication second third) :
    SameApplication first third :=
  fun keyspace application => (left keyspace application).trans (right keyspace application)

theorem SameApplication.symm (same : SameApplication first second) : SameApplication second first :=
  fun keyspace application => (same keyspace application).symm

theorem SameApplication.commit (same : SameApplication first second) (writes : List Write) :
    SameApplication (commit first writes) (commit second writes) :=
  fun keyspace application => commit_congr _ _ _ _ (same keyspace application)

section
variable [FleetosCore] [Formats] [Merges] {first second : Disk} {server : AdminServer} {peer : Peer}
  {manifest : Manifest} {manifests front : List Manifest} {response : AdminServer.ApplyResponse} {before after : Node}
  {requestId : String} {keyspace : Keyspace} {key : Bytes}

namespace Manifest

def writes (manifest : Manifest) (storage : Disk) : List Write :=
  applyManifests (processManifest storage manifest).2.toList

def stored (manifest : Manifest) (storage : Disk) : Option Bytes :=
  (processManifest storage manifest).2.map (·.newRecordBytes)

def live (manifest : Manifest) (storage : Disk) : Option Bytes :=
  manifest.target.bind fun (keyspace,_,key) => (storage keyspace)[key]?

variable {manifest : Manifest} {keyspace : Keyspace} {name : String} {key : Bytes}

theorem target_keyspace (target : manifest.target = some (keyspace,name,key)) :
    manifestKeyspace name = some keyspace ∧ keyspace.application = true := by
  cases targets_of_target target <;> exact ⟨rfl,rfl⟩

theorem writes_eq (target : manifest.target = some (keyspace,name,key)) (storage : Disk) :
    manifest.writes storage = ((manifest.stored storage).map (.insert keyspace key)).toList := by
  unfold writes stored
  cases made : (processManifest storage manifest).2 with
  | none => rfl
  | some update =>
    obtain ⟨found,_,target',_,_⟩ := processManifest_update.mp made
    obtain ⟨rfl,rfl,rfl⟩ : keyspace = found ∧ name = update.targetKeyspace ∧ key = update.targetKey := by
      simpa using target.symm.trans target'
    simp [applyManifests,(target_keyspace target).1]

theorem writes_untargeted (target : manifest.target = none) (storage : Disk) : manifest.writes storage = [] := by
  unfold writes processManifest
  rw [target]
  rfl

def Fine (manifest : Manifest) (storage : Disk) : Prop := manifest.target ≠ none ∧ ¬Conflicts storage manifest

end Manifest

namespace AdminServer.ApplyResponse

def Accepts (response : ApplyResponse) (manifests : List Manifest) : Prop :=
  response.results.length = manifests.length ∧
    ∀ result ∈ response.results, result.status ≠ .conflict ∧ result.status ≠ .invalid

def Takes (response : ApplyResponse) (before after : Node) : Prop :=
  match response.proposal with
  | none => after = before
  | some audited => ∃ logId, Advances before ⟨logId,.normal audited⟩ after

end AdminServer.ApplyResponse

theorem status_invalid_iff (storage : Disk) (manifest : Manifest) :
    (processManifest storage manifest).1.status = .invalid ↔ manifest.target = none := by
  unfold processManifest
  split
  case h_1 none => simp [none,Manifest.result]
  case h_2 keyspace name key target =>
    have known : manifest.target ≠ none := by simp [target]
    split <;> simp only [Manifest.result,target,reduceCtorEq,iff_false]
    split <;> simp

theorem reported_fine :
    (∃ result, server.reported peer manifest = some result ∧ result.status ≠ .conflict ∧ result.status ≠ .invalid) ↔
      server.Admits peer manifest ∧ manifest.Fine server.storage := by
  unfold AdminServer.reported
  by_cases versioned : Versioned manifest
  · by_cases admitted : server.Admits peer manifest
    · simp [versioned,admitted,Manifest.Fine,Conflicts,status_invalid_iff,and_comm]
    · simp [versioned,admitted]
  · have refused : ¬server.Admits peer manifest := fun admitted => versioned admitted.1
    simp [versioned,refused,Manifest.result]

theorem accepts_iff (results : response.results = manifests.filterMap (server.reported peer)) :
    response.Accepts manifests ↔ ∀ manifest ∈ manifests, server.Admits peer manifest ∧ manifest.Fine server.storage := by
  unfold AdminServer.ApplyResponse.Accepts
  rw [results,List.filterMap_length_eq_length]
  constructor
  · rintro ⟨answered,accepted⟩ manifest member
    obtain ⟨result,reported⟩ := Option.isSome_iff_exists.mp (answered manifest member)
    exact reported_fine.mp ⟨result,reported,accepted result (mem_filterMap.mpr ⟨manifest,member,reported⟩)⟩
  · intro fine
    refine ⟨?_,?_⟩
    · intro manifest member
      obtain ⟨result,reported,_⟩ := reported_fine.mpr (fine manifest member)
      rw [reported]
      rfl
    · intro result listed
      obtain ⟨manifest,member,reported⟩ := mem_filterMap.mp listed
      obtain ⟨same,reported',accepted⟩ := reported_fine.mpr (fine manifest member)
      cases reported.symm.trans reported'
      exact accepted

def batchWrites (manifests : List Manifest) (storage : Disk) : List Write :=
  manifests.flatMap fun manifest => manifest.writes storage

theorem applyManifests_updates (manifests : List Manifest) (storage : Disk) :
    applyManifests (manifests.filterMap fun manifest => (processManifest storage manifest).2) =
      batchWrites manifests storage := by
  unfold batchWrites
  induction manifests with
  | nil => rfl
  | cons manifest manifests ih =>
    rw [List.flatMap_cons,← ih,Manifest.writes,applyManifests,applyManifests,applyManifests,← List.filterMap_append]
    cases made : (processManifest storage manifest).2 <;> simp [made]

theorem AdminServer.Proposes.effect (own : server.storage = before.disk)
    (proposes : server.Proposes peer requestId manifests audited)
    (advances : Advances before ⟨logId,.normal audited⟩ after) :
    SameApplication after.disk (commit before.disk (batchWrites manifests before.disk)) := by
  obtain ⟨writes,kind,applied,contents⟩ := advances.applied rfl
  rw [proposes.command] at applied
  cases applied
  rw [← own,← applyManifests_updates]
  rw [← own] at contents
  exact contents

theorem takes_effect (own : server.storage = before.disk)
    (ok : server.apply peer requestId ⟨some manifests,false⟩ = .ok response) (accepts : response.Accepts manifests)
    (takes : response.Takes before after) :
    SameApplication after.disk (commit before.disk (batchWrites manifests before.disk)) := by
  obtain ⟨_,results,proposal⟩ := apply_answers rfl ok
  have fine := (accepts_iff results).mp accepts
  unfold AdminServer.ApplyResponse.Takes at takes
  split at takes
  case h_1 none =>
    -- nothing to propose, so nothing to write
    have unchanged : manifests.filterMap (fun manifest => (processManifest server.storage manifest).2) = [] := by
      by_contra changes
      have proposed := (proposal _).mpr ⟨rfl,fun manifest member => (fine manifest member).1,
        fun manifest member => (fine manifest member).2.2,changes,rfl⟩
      rw [none] at proposed
      cases proposed
    rw [takes,← own,← applyManifests_updates,unchanged]
    exact fun _ _ => rfl
  case h_2 audited proposed =>
    obtain ⟨logId,advances⟩ := takes
    obtain ⟨_,proposes⟩ := (proposal audited).mp proposed
    exact proposes.effect own advances

theorem takes_exists (response : AdminServer.ApplyResponse) (before : Node)
    (manifests : ∀ audited, response.proposal = some audited → ∃ updates, audited.cmd = .applyManifests updates) :
    ∃ after, response.Takes before after := by
  unfold AdminServer.ApplyResponse.Takes
  split
  case h_1 => exact ⟨before,rfl⟩
  case h_2 audited proposed =>
    obtain ⟨updates,command⟩ := manifests audited proposed
    have payload : payloadWrites before.disk ⟨⟨⟨0,0⟩,0⟩,.normal audited⟩ =
        .ok (applyManifests updates,.schedulingUpdate) := by
      simp only [payloadWrites,command,applyCommand]
    obtain ⟨after,response,ok⟩ := applyEntry_of_payload before _ payload
    exact ⟨after,_,response,ok⟩

def AppliesManifests (peer : Peer) (manifests : List Manifest) (before after : Node) : Prop :=
  ∃ (server : AdminServer) (requestId : String) (response : AdminServer.ApplyResponse), server.storage = before.disk ∧
    server.apply peer requestId ⟨some manifests,false⟩ = .ok response ∧ response.Accepts manifests ∧
    response.Takes before after

theorem AppliesManifests.effect (applies : AppliesManifests peer manifests before after) :
    (∀ manifest ∈ manifests, Versioned manifest ∧ manifest.Fine before.disk) ∧
      SameApplication after.disk (commit before.disk (batchWrites manifests before.disk)) := by
  obtain ⟨server,requestId,response,own,ok,accepts,takes⟩ := applies
  have results := (apply_answers rfl ok).2.1
  refine ⟨fun manifest member => ?_,takes_effect own ok accepts takes⟩
  obtain ⟨admitted,fine⟩ := (accepts_iff results).mp accepts manifest member
  exact ⟨admitted.1,own ▸ fine⟩

theorem batchWrites_snoc (front : List Manifest) (manifest : Manifest) (storage : Disk) :
    commit storage (batchWrites (front ++ [manifest]) storage) =
      commit (commit storage (batchWrites front storage)) (manifest.writes storage) := by
  rw [batchWrites,List.flatMap_append,List.flatMap_singleton,commit_append]
  rfl

def Manifest.object (manifest : Manifest) : Option (Keyspace × Bytes) :=
  manifest.target.map fun (keyspace,_,key) => (keyspace,key)

theorem writes_other {storage} (other : manifest.object ≠ some (keyspace,key)) :
    ∀ write ∈ manifest.writes storage, write.table = keyspace → write.key ≠ key := by
  intro write member table same
  cases target : manifest.target with
  | none =>
    rw [manifest.writes_untargeted target] at member
    cases member
  | some named =>
    obtain ⟨found,name,written⟩ := named
    rw [manifest.writes_eq target,Option.mem_toList,map_eq_some_iff] at member
    obtain ⟨bytes,_,rfl⟩ := member
    apply other
    rw [Manifest.object,target,← table,← same]
    rfl

theorem AppliesManifests.lookup (applies : AppliesManifests peer (front ++ manifest::back) before after)
    (alone : ∀ other ∈ front ++ back, other.object ≠ manifest.object)
    (target : manifest.target = some (keyspace,name,key)) :
    (after.disk keyspace)[key]? = (manifest.stored before.disk).or (before.disk keyspace)[key]? := by
  have object : manifest.object = some (keyspace,key) := by simp [Manifest.object,target]
  have elsewhere : ∀ others : List Manifest, (∀ other ∈ others, other ∈ front ++ back) →
      ∀ write ∈ batchWrites others before.disk, write.table = keyspace → write.key ≠ key := by
    intro others inside write member
    obtain ⟨other,listed,written⟩ := mem_flatMap.mp member
    exact writes_other (object ▸ alone other (inside other listed)) write written
  have split : batchWrites (front ++ manifest::back) before.disk =
      batchWrites front before.disk ++ (manifest.writes before.disk ++ batchWrites back before.disk) := by
    simp [batchWrites]
  rw [applies.effect.2 keyspace (manifest.target_keyspace target).2,split,commit_append,commit_append,
    commit_lookup_other _ _ (elsewhere back fun _ => mem_append_right _),manifest.writes_eq target,
    commit_optional_lookup,commit_lookup_other _ _ (elsewhere front fun _ => mem_append_left _)]

end

open Reference Manifests

def applied (node : Node) (manifests : List Manifest) : Node :=
  match ((adminServer node.disk).apply fleetctlProxy "req-1" ⟨some manifests,false⟩).toOption.bind (·.proposal) with
  | some audited => (apply node [⟨logIdAt 1,.normal audited⟩]).1
  | none => node

instance (manifest : Manifest) (storage : Disk) : Decidable (manifest.Fine storage) :=
  inferInstanceAs (Decidable (¬_ ∧ ¬_))

theorem applied_applies {node : Node}
    (fine : (adminServer node.disk).Admits fleetctlProxy manifest ∧ manifest.Fine node.disk) :
    AppliesManifests fleetctlProxy [manifest] node (applied node [manifest]) := by
  have caller : verifyCaller fleetctlProxy = .ok () := rfl
  obtain ⟨response,ok⟩ := (adminServer node.disk).apply_listed caller "req-1" [manifest] false
  obtain ⟨_,results,proposal⟩ := apply_answers rfl ok
  have accepts : response.Accepts [manifest] := by
    refine (accepts_iff results).mpr fun only member => ?_
    rw [mem_singleton.mp member]
    exact fine
  refine ⟨_,"req-1",response,rfl,ok,accepts,?_⟩
  unfold applied AdminServer.ApplyResponse.Takes
  rw [ok]
  cases proposed : response.proposal with
  | none => simp [Except.toOption,proposed]
  | some audited =>
    obtain ⟨_,proposes⟩ := (proposal audited).mp proposed
    refine ⟨logIdAt 1,?_⟩
    simp only [Except.toOption,Option.bind_some,proposed]
    apply advances_apply
    rw [proposes.command]
    rfl

def shopReplicas : Manifest :=
  workloadManifest "acme" "shop" { replicas := (∅ : Std.ExtTreeMap String UInt32 compare).insert "web" 1 }

def imageFirst : Node := applied (boot Disk.empty) [shopImage "shop:v1"]

def cartImage : Manifest := workloadManifest "acme" "cart" { image := some "cart:v1" }

-- The image is set already when the batch sets it again, with the replicas and another workload.
def restated : List Manifest := [shopImage "shop:v1",shopReplicas,cartImage]

end FleetosControl
