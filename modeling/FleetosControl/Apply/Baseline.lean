import FleetosControl.Apply.Sequence
import FleetosControl.Secrets.Crypto

/-! A second apply. The baseline is empty, so what the first wrote counts as an edit of somebody
else, unless the second asks for what it finds. -/
namespace FleetosControl
open Wire KeyValue Trace Manifests

section
variable [FleetosCore] [WorkloadMessages] [ManifestMessages] [Formats] {manifest first second : Manifest}
  {liveBytes bytes : Bytes} {peer : Peer} {manifests : List Manifest} {before after : Node}

inductive Manifest.View (manifest : Manifest) : Prop where
  | workload (w : ManifestWorkloadSpec) : manifest.kind = "Workload" → manifest.spec = some (.workload w) → View manifest
  | tenant : manifest.kind = "Tenant" → manifest.spec = some .tenant → View manifest
  | sagRule (s : ManifestSagRuleSpec) : manifest.kind = "SagRule" → manifest.spec = some (.sagRule s) → View manifest
  | secret (s : ManifestSecretSpec) : manifest.kind = "Secret" → manifest.spec = some (.secret s) → View manifest
  | nodePool (n : ManifestNodePoolSpec) : manifest.kind = "NodePool" → manifest.spec = some (.nodePool n) → View manifest
  | other : (∀ spec ∈ manifest.spec, spec.kind ≠ manifest.kind) → View manifest

theorem Manifest.view (manifest : Manifest) : manifest.View := by
  cases spec : manifest.spec with
  | none => exact .other (by simp [spec])
  | some given =>
    by_cases kind : given.kind = manifest.kind
    · cases given with
      | workload w => exact .workload w kind.symm spec
      | tenant => exact .tenant kind.symm spec
      | sagRule s => exact .sagRule s kind.symm spec
      | secret s => exact .secret s kind.symm spec
      | nodePool n => exact .nodePool n kind.symm spec
    · exact .other (by simp [spec,kind])

theorem merge_other (other : ∀ spec ∈ manifest.spec, spec.kind ≠ manifest.kind) (liveBytes lastAppliedBytes : Bytes) :
    manifest.merge liveBytes lastAppliedBytes = .unchanged := by
  unfold Manifest.merge
  split
  case h_6 => rfl
  all_goals
    case _ kind spec => exact absurd kind.symm (other _ spec)

def Manifest.Fields (judgement : Merging.Judgement) (manifest : Manifest) (liveBytes : Bytes) : Prop :=
  ∀ spec ∈ manifest.spec, spec.kind = manifest.kind → match spec with
    | .workload w => (liveWorkload liveBytes).Fields judgement w
    | .sagRule s => (liveSagRule liveBytes).Fields judgement s
    | .nodePool n => (liveNodePool liveBytes).Fields judgement n
    | _ => True

theorem merge_conflicted_iff (manifest : Manifest) (liveBytes : Bytes) :
    (∃ conflicts, manifest.merge liveBytes [] = .conflicted conflicts) ↔ ¬manifest.Fields Merging.clean liveBytes := by
  unfold Manifest.Fields
  cases manifest.view with
  | workload w kind spec =>
    have merged := mergeWorkload_conflicted_iff w liveBytes
    simpa [Manifest.merge,Merges.mergeWorkload,kind,spec,ManifestSpec.kind] using merged
  | tenant kind spec => simp [Manifest.merge,kind,spec,mergeTenant]
  | sagRule s kind spec =>
    have merged := mergeSagRule_conflicted_iff s liveBytes
    simpa [Manifest.merge,Merges.mergeSagRule,kind,spec,ManifestSpec.kind] using merged
  | secret s kind spec =>
    simp only [Manifest.merge,kind,spec,mergeSecret]
    split <;> simp
  | nodePool n kind spec =>
    have agreed := mergeNodePool_agreed n liveBytes
    simp [Manifest.merge,Merges.mergeNodePool,kind,spec,ManifestSpec.kind,NodePoolRecord.Fields,Merging.clean,agreed]
  | other none =>
    simp only [merge_other none]
    simp only [reduceCtorEq,exists_false,false_iff,not_not]
    intro spec given kind
    exact absurd kind (none spec given)

inductive Manifest.Writes (manifest : Manifest) (liveBytes : Bytes) : Bytes → Prop where
  | workload : manifest.kind = "Workload" → manifest.spec = some (.workload w) →
      Writes manifest liveBytes (encodeWorkloadSpec ((liveWorkload liveBytes).merged w))
  | sagRule : manifest.kind = "SagRule" → manifest.spec = some (.sagRule s) →
      Writes manifest liveBytes (encodeSagRule ((liveSagRule liveBytes).merged s))
  | secret : manifest.kind = "Secret" → manifest.spec = some (.secret s) →
      s.value.isSome ∨ s.authorizedSpiffeIds ≠ [] → Writes manifest liveBytes liveBytes
  | nodePool : manifest.kind = "NodePool" → manifest.spec = some (.nodePool n) →
      Writes manifest liveBytes (toAllocvec ((liveNodePool liveBytes).merged n))

theorem merge_updated (updated : manifest.merge liveBytes [] = .updated bytes) : manifest.Writes liveBytes bytes := by
  cases manifest.view with
  | workload w kind spec =>
    simp only [Manifest.merge,Merges.mergeWorkload,kind,spec] at updated
    rw [mergeWorkload_updated updated]
    exact .workload kind spec
  | tenant kind spec =>
    simp only [Manifest.merge,kind,spec,mergeTenant] at updated
    cases updated
  | sagRule s kind spec =>
    simp only [Manifest.merge,Merges.mergeSagRule,kind,spec] at updated
    rw [mergeSagRule_updated updated]
    exact .sagRule kind spec
  | secret s kind spec =>
    simp only [Manifest.merge,kind,spec,mergeSecret] at updated
    split at updated
    case isTrue sets =>
      cases updated
      exact .secret kind spec (by simpa using sets)
    case isFalse => cases updated
  | nodePool n kind spec =>
    simp only [Manifest.merge,Merges.mergeNodePool,kind,spec] at updated
    rw [mergeNodePool_updated updated]
    exact .nodePool kind spec
  | other none =>
    rw [merge_other none] at updated
    cases updated

theorem live_eq (target : manifest.target = some (keyspace,name,key)) (storage : Disk) :
    manifest.live storage = (storage keyspace)[key]? := by
  simp [Manifest.live,target]

theorem stored_iff (storage : Disk) (bytes : Bytes) : manifest.stored storage = some bytes ↔
      manifest.target ≠ none ∧ manifest.merge ((manifest.live storage).getD []) [] = .updated bytes := by
  unfold Manifest.stored processManifest
  cases target : manifest.target with
  | none => simp
  | some named =>
    obtain ⟨keyspace,name,key⟩ := named
    rw [live_eq target]
    simp only
    split <;> simp [*]

theorem conflicts_iff (known : manifest.target ≠ none) (storage : Disk) :
    Conflicts storage manifest ↔ ¬manifest.Fields Merging.clean ((manifest.live storage).getD []) := by
  rw [← merge_conflicted_iff]
  unfold Conflicts processManifest
  cases target : manifest.target with
  | none => exact absurd target known
  | some named =>
    obtain ⟨keyspace,name,key⟩ := named
    rw [live_eq target]
    simp only
    split
    case h_1 bytes merged =>
      rw [merged]
      simp only [Manifest.result]
      split <;> simp
    case h_2 merged => simp [merged,Manifest.result]
    case h_3 conflicts merged => simp [merged,Manifest.result]

def CommitsManifests (peer : Peer) (manifests : List Manifest) (before after : Node) : Prop :=
  ∃ (server : AdminServer) (requestId : String) (response : AdminServer.ApplyResponse) (audited : AuditedCommand)
    (logId : LogId), server.storage = before.disk ∧
    server.apply peer requestId ⟨some manifests,false⟩ = .ok response ∧ response.proposal = some audited ∧
    Advances before ⟨logId,.normal audited⟩ after

theorem CommitsManifests.effect (commits : CommitsManifests peer manifests before after) :
    (∀ manifest ∈ manifests, Versioned manifest ∧ ¬Conflicts before.disk manifest) ∧
      (∃ manifest ∈ manifests, manifest.stored before.disk ≠ none) ∧
      SameApplication after.disk (commit before.disk (batchWrites manifests before.disk)) := by
  obtain ⟨server,requestId,response,audited,logId,own,ok,proposed,advances⟩ := commits
  obtain ⟨_,_,proposal⟩ := apply_answers rfl ok
  obtain ⟨_,proposes⟩ := (proposal audited).mp proposed
  refine ⟨?_,?_,proposes.effect own advances⟩
  · intro manifest member
    exact ⟨(proposes.admitted manifest member).1,own ▸ proposes.agreed manifest member⟩
  · obtain ⟨update,listed⟩ := List.exists_mem_of_ne_nil _ proposes.changes
    obtain ⟨manifest,member,made⟩ := mem_filterMap.mp listed
    refine ⟨manifest,member,?_⟩
    rw [Manifest.stored,← own,made]
    simp

theorem CommitsManifests.single (commits : CommitsManifests peer [manifest] before after) :
    manifest.target ≠ none ∧ ∃ bytes, manifest.Writes ((manifest.live before.disk).getD []) bytes ∧
      manifest.live after.disk = some bytes := by
  obtain ⟨_,⟨only,member,changes⟩,effect⟩ := commits.effect
  obtain rfl := mem_singleton.mp member
  obtain ⟨bytes,stored⟩ := Option.ne_none_iff_exists'.mp changes
  obtain ⟨known,updated⟩ := (stored_iff _ _).mp stored
  refine ⟨known,bytes,merge_updated updated,?_⟩
  obtain ⟨⟨keyspace,name,key⟩,target⟩ := Option.ne_none_iff_exists'.mp known
  rw [live_eq target,effect keyspace (Manifest.target_keyspace target).2,batchWrites,List.flatMap_singleton,
    Manifest.writes_eq target,commit_optional_lookup,stored,Option.some_or]

def AdminServer.Succeeds (server : AdminServer) (peer : Peer) (manifests : List Manifest) (node : Node) : Prop :=
  ∀ requestId, ∃ response, server.apply peer requestId ⟨some manifests,false⟩ = .ok response ∧
    response.Accepts manifests ∧ ∃ after, response.Takes node after

theorem succeeds_iff {server : AdminServer} (caller : verifyCaller peer = .ok ()) :
    server.Succeeds peer manifests node ↔
      ∀ manifest ∈ manifests, server.Admits peer manifest ∧ manifest.Fine server.storage := by
  constructor
  · intro succeeds
    obtain ⟨response,ok,accepts,_⟩ := succeeds ""
    exact (accepts_iff (apply_answers rfl ok).2.1).mp accepts
  · intro fine requestId
    obtain ⟨response,ok⟩ := server.apply_listed caller requestId manifests false
    obtain ⟨_,results,proposal⟩ := apply_answers rfl ok
    refine ⟨response,ok,(accepts_iff results).mpr fine,takes_exists response node ?_⟩
    intro audited proposed
    exact ⟨_,by rw [((proposal audited).mp proposed).2.command]⟩

theorem kind_of_object (same : first.object = second.object) (known : first.target ≠ none) :
    first.kind = second.kind := by
  have named : ∀ {manifest : Manifest} {keyspace : Keyspace} {key : Bytes}, manifest.object = some (keyspace,key) →
      manifest.kind = match keyspace with
        | .workloads => "Workload"
        | .tenants => "Tenant"
        | .sagRules => "SagRule"
        | .secrets => "Secret"
        | _ => "NodePool" := by
    intro manifest keyspace key object
    obtain ⟨⟨_,name,_⟩,target,pair⟩ := map_eq_some_iff.mp object
    cases pair
    cases targets_of_target target <;> assumption
  obtain ⟨⟨keyspace,name,key⟩,target⟩ := Option.ne_none_iff_exists'.mp known
  have object : first.object = some (keyspace,key) := by simp [Manifest.object,target]
  rw [named object,named (same ▸ object)]

theorem live_of_object (same : first.object = second.object) (storage : Disk) :
    first.live storage = second.live storage := by
  have read : ∀ manifest : Manifest, manifest.live storage = manifest.object.bind fun (keyspace,key) =>
      (storage keyspace)[key]? := by
    intro manifest
    simp only [Manifest.live,Manifest.object]
    cases manifest.target <;> rfl
  rw [read,read,same]

/-- Every field that the second sets is, after the first, at its default or already as asked. -/
def Manifest.Precedes (first second : Manifest) (liveBytes : Bytes) : Prop :=
  match first.spec, second.spec with
  | some (.workload earlier), some (.workload next) => ((liveWorkload liveBytes).merged earlier).Fields Merging.clean next
  | some (.sagRule earlier), some (.sagRule next) => ((liveSagRule liveBytes).merged earlier).Fields Merging.clean next
  | _, _ => True

theorem precedes_iff [MessageLaws] (same : first.kind = second.kind) (writes : first.Writes liveBytes bytes) :
    second.Fields Merging.clean bytes ↔ first.Precedes second liveBytes := by
  unfold Manifest.Fields Manifest.Precedes
  cases writes with
  | workload kind spec =>
    rcases asked : second.spec with _ | (_ | _ | _ | _ | _) <;> simp [← same,kind,spec,ManifestSpec.kind]
  | sagRule kind spec =>
    rcases asked : second.spec with _ | (_ | _ | _ | _ | _) <;> simp [← same,kind,spec,ManifestSpec.kind]
  | secret kind spec _ =>
    rcases asked : second.spec with _ | (_ | _ | _ | _ | _) <;> simp [← same,kind,spec,ManifestSpec.kind]
  | nodePool kind spec =>
    rcases asked : second.spec with _ | (_ | _ | _ | _ | _) <;>
      simp [← same,kind,spec,ManifestSpec.kind,NodePoolRecord.Fields,Merging.clean]

/-- A second apply succeeds exactly if each field that it sets is at its default or already as asked. -/
theorem next_apply_succeeds_iff [MessageLaws] {peer other : Peer} {first second : Manifest} {before after later : Node}
    {trace : List (Transition Node Entry)} {server : AdminServer} (same : first.object = second.object)
    (commits : CommitsManifests peer [first] before after) (run : Run Advances after trace later)
    (untouched : ∀ transition ∈ trace, first.live transition.after.disk = first.live transition.before.disk)
    (own : server.storage = later.disk) (caller : verifyCaller other = .ok ()) (admitted : server.Admits other second) :
    server.Succeeds other [second] later ↔ first.Precedes second ((first.live before.disk).getD []) := by
  obtain ⟨known,bytes,writes,left⟩ := commits.single
  have kept := (run.invariant (fun node => first.live node.disk = some bytes)
    (fun transition => first.live transition.after.disk = first.live transition.before.disk)
    (fun _ _ _ _ meets held => meets.trans held) left untouched).2
  have named : second.target ≠ none := by
    intro untargeted
    have object : second.object = none := by simp [Manifest.object,untargeted]
    exact known (Option.map_eq_none_iff.mp (same.trans object))
  have found : second.live server.storage = some bytes := by rw [own,← live_of_object same,kept]
  rw [succeeds_iff caller,← precedes_iff (kind_of_object same known) writes]
  constructor
  · intro fine
    have agreed := (fine second (mem_singleton_self _)).2.2
    rw [conflicts_iff named,found] at agreed
    exact not_not.mp agreed
  · intro free manifest member
    obtain rfl := mem_singleton.mp member
    refine ⟨admitted,named,?_⟩
    rw [conflicts_iff named,found]
    exact not_not.mpr free

end

section
open Reference

theorem commits_applied {node : Node} {manifests}
    (admitted : ∀ manifest ∈ manifests, (adminServer node.disk).Admits fleetctlProxy manifest)
    (agreed : ∀ manifest ∈ manifests, ¬Conflicts node.disk manifest)
    (changes : manifests.filterMap (fun manifest => (processManifest node.disk manifest).2) ≠ []) :
    CommitsManifests fleetctlProxy manifests node (applied node manifests) := by
  have caller : verifyCaller fleetctlProxy = .ok () := rfl
  obtain ⟨response,ok⟩ := (adminServer node.disk).apply_listed caller "req-1" manifests false
  obtain ⟨_,_,proposal⟩ := apply_answers rfl ok
  have proposed := (proposal _).mpr ⟨rfl,admitted,agreed,changes,rfl⟩
  refine ⟨_,"req-1",response,_,logIdAt 1,rfl,ok,proposed,?_⟩
  unfold applied
  rw [ok]
  simp only [Except.toOption,Option.bind_some,proposed]
  apply advances_apply
  rfl

theorem replicas_follow_image : (adminServer imageFirst.disk).Succeeds fleetctlProxy [shopReplicas] imageFirst := by
  have commits : CommitsManifests fleetctlProxy [shopImage "shop:v1"] (boot Disk.empty) imageFirst :=
    commits_applied (by decide +kernel) (by decide +kernel) (by decide +kernel)
  have caller : verifyCaller fleetctlProxy = .ok () := rfl
  have admitted : (adminServer imageFirst.disk).Admits fleetctlProxy shopReplicas := by decide +kernel
  have object : (shopImage "shop:v1").object = shopReplicas.object := rfl
  refine (next_apply_succeeds_iff object commits (.nil imageFirst) (by simp) rfl caller admitted).mpr ?_
  have unset : liveWorkload (((shopImage "shop:v1").live (boot Disk.empty).disk).getD []) = {} := rfl
  unfold Manifest.Precedes
  rw [unset]
  simp [shopImage,shopReplicas,workloadManifest,WorkloadSpec.Fields,Merging.clean,WorkloadSpec.merged,unlessEmpty]

theorem second_image_conflicts : CommitsManifests fleetctlProxy [shopImage "shop:v1"] (boot Disk.empty) imageFirst ∧
    ¬(adminServer imageFirst.disk).Succeeds fleetctlProxy [shopImage "shop:v2"] imageFirst := by
  refine ⟨commits_applied (by decide +kernel) (by decide +kernel) (by decide +kernel),?_⟩
  intro succeeds
  have fine := (succeeds_iff rfl).mp succeeds (shopImage "shop:v2") (mem_singleton_self _)
  revert fine
  decide +kernel

end

section
variable [FleetosCore] [WorkloadMessages] [ManifestMessages] [Formats] {manifest : Manifest} {manifests : List Manifest}
  {peer : Peer} {before after : Node}

/-- Any content at all makes the merge of a secret report a change. -/
def Manifest.SetsSecret (manifest : Manifest) : Prop :=
  ∃ s : ManifestSecretSpec, manifest.kind = "Secret" ∧ manifest.spec = some (.secret s) ∧
    (s.value.isSome ∨ s.authorizedSpiffeIds ≠ [])

/-- The record has what the manifest asks for; a node pool that is not there is never asked for anything. -/
def Manifest.Settled (manifest : Manifest) (liveBytes : Bytes) : Prop :=
  manifest.kind = "NodePool" ∧ liveBytes = [] ∨ manifest.Fields Merging.idle liveBytes

theorem merge_unchanged_iff (manifest : Manifest) (liveBytes : Bytes) :
    manifest.merge liveBytes [] = .unchanged ↔ ¬manifest.SetsSecret ∧ manifest.Settled liveBytes := by
  unfold Manifest.SetsSecret Manifest.Settled Manifest.Fields
  cases manifest.view with
  | workload w kind spec =>
    have merged := mergeWorkload_unchanged_iff w liveBytes
    simpa [Manifest.merge,Merges.mergeWorkload,kind,spec,ManifestSpec.kind] using merged
  | tenant kind spec => simp [Manifest.merge,kind,spec,mergeTenant,ManifestSpec.kind]
  | sagRule s kind spec =>
    have merged := mergeSagRule_unchanged_iff s liveBytes
    simpa [Manifest.merge,Merges.mergeSagRule,kind,spec,ManifestSpec.kind] using merged
  | secret s kind spec =>
    simp [Manifest.merge,kind,spec,mergeSecret,ManifestSpec.kind]
  | nodePool n kind spec =>
    have merged := mergeNodePool_unchanged_iff n liveBytes
    simpa [Manifest.merge,Merges.mergeNodePool,kind,spec,ManifestSpec.kind] using merged
  | other none =>
    simp only [merge_other none,true_iff]
    refine ⟨?_,.inr ?_⟩
    · rintro ⟨s,kind,spec,_⟩
      exact none _ spec kind.symm
    · intro spec given kind
      exact absurd kind (none spec given)

theorem written_settled [MessageLaws] (plain : ¬manifest.SetsSecret) (writes : manifest.Writes liveBytes bytes) :
    manifest.Settled bytes := by
  refine .inr fun spec given _ => ?_
  cases writes with
  | workload kind asked =>
    cases Option.some.inj (asked.symm.trans given)
    simp only [liveWorkload_encode]
    exact WorkloadSpec.merged_idle _ _
  | sagRule kind asked =>
    cases Option.some.inj (asked.symm.trans given)
    simp only [liveSagRule_encode]
    exact SagRule.merged_idle _ _
  | secret kind asked sets => exact absurd ⟨_,kind,asked,sets⟩ plain
  | nodePool kind asked =>
    cases Option.some.inj (asked.symm.trans given)
    simp only [liveNodePool_toAllocvec]
    exact NodePoolRecord.merged_idle _ _

def lastStored (manifests : List Manifest) (storage : Disk) (object : Option (Keyspace × Bytes)) : Option Bytes :=
  manifests.reverse.findSome? fun manifest => if manifest.object = object then manifest.stored storage else none

theorem lastStored_snoc (front : List Manifest) (manifest : Manifest) (storage : Disk) (object : Option (Keyspace × Bytes)) :
    lastStored (front ++ [manifest]) storage object =
      (if manifest.object = object then manifest.stored storage else none).or (lastStored front storage object) := by
  unfold lastStored
  rw [List.reverse_append,List.reverse_singleton,List.singleton_append,List.findSome?_cons]
  split <;> simp [*]

theorem batch_lookup (manifests : List Manifest) (storage : Disk) (keyspace : Keyspace) (key : Bytes) :
    (commit storage (batchWrites manifests storage) keyspace)[key]? =
      (lastStored manifests storage (some (keyspace,key))).or (storage keyspace)[key]? := by
  induction manifests using List.reverseRecOn with
  | nil => rfl
  | append_singleton front manifest ih =>
    rw [batchWrites_snoc,lastStored_snoc]
    split
    case isTrue object =>
      obtain ⟨⟨_,name,_⟩,target,pair⟩ := map_eq_some_iff.mp object
      cases pair
      rw [Manifest.writes_eq target,commit_optional_lookup,ih,Option.or_assoc]
    case isFalse other =>
      rw [commit_lookup_other _ _ (writes_other other),ih]
      rfl

theorem lastStored_ne_none : lastStored manifests storage object ≠ none ↔
      ∃ other ∈ manifests, other.object = object ∧ other.stored storage ≠ none := by
  unfold lastStored
  rw [ne_eq,List.findSome?_eq_none_iff]
  push Not
  simp only [List.mem_reverse]
  refine exists_congr fun other => and_congr_right fun _ => ?_
  by_cases same : other.object = object <;> simp [same]

section
variable (commits : CommitsManifests peer manifests before after) (known : manifest.target ≠ none)
include commits known

theorem CommitsManifests.left :
    manifest.live after.disk = (lastStored manifests before.disk manifest.object).or (manifest.live before.disk) := by
  obtain ⟨⟨keyspace,name,key⟩,target⟩ := Option.ne_none_iff_exists'.mp known
  have object : manifest.object = some (keyspace,key) := by simp [Manifest.object,target]
  rw [live_eq target,live_eq target,commits.effect.2.2 keyspace (Manifest.target_keyspace target).2,batch_lookup,object]

theorem CommitsManifests.present_iff : (manifest.live before.disk = none → (manifest.live after.disk).isSome = true) ↔
      manifest.live before.disk ≠ none ∨
        ∃ other ∈ manifests, other.object = manifest.object ∧ other.stored before.disk ≠ none := by
  rw [← lastStored_ne_none,commits.left known,← imp_iff_not_or]
  refine imp_congr_right fun absent => ?_
  rw [absent,Option.or_none,Option.isSome_iff_ne_none]

end

theorem unchanged_iff (storage : Disk) (manifest : Manifest) :
    (processManifest storage manifest).1 = manifest.result .unchanged [] ↔
      manifest.target ≠ none ∧ manifest.merge ((manifest.live storage).getD []) [] = .unchanged := by
  unfold processManifest
  cases target : manifest.target with
  | none => simp [Manifest.result]
  | some named =>
    obtain ⟨keyspace,name,key⟩ := named
    rw [live_eq target]
    simp only
    split
    case h_1 bytes merged =>
      simp only [merged,Manifest.result]
      split <;> simp
    case h_2 merged => simp [merged]
    case h_3 conflicts merged => simp [merged,Manifest.result]

def AdminServer.Repeats (server : AdminServer) (peer : Peer) (manifests : List Manifest) : Prop :=
  ∀ requestId, ∃ response, server.apply peer requestId ⟨some manifests,false⟩ = .ok response ∧
    response.proposal = none ∧ response.results = manifests.map fun manifest => manifest.result .unchanged []

theorem repeats_iff {server : AdminServer} (caller : verifyCaller peer = .ok ())
    (admitted : ∀ manifest ∈ manifests, server.Admits peer manifest) :
    server.Repeats peer manifests ↔ ∀ manifest ∈ manifests, manifest.target ≠ none ∧
      manifest.merge ((manifest.live server.storage).getD []) [] = .unchanged := by
  have reported : manifests.filterMap (server.reported peer) =
      manifests.map fun manifest => (processManifest server.storage manifest).1 := by
    rw [← List.filterMap_eq_map]
    apply List.filterMap_congr
    intro manifest member
    have known := admitted manifest member
    simp [AdminServer.reported,known,known.1]
  simp only [← unchanged_iff]
  constructor
  · intro repeats
    obtain ⟨response,ok,_,results⟩ := repeats ""
    rw [(apply_answers rfl ok).2.1,reported] at results
    exact List.map_inj_left.mp results
  · intro unchanged requestId
    obtain ⟨response,ok⟩ := server.apply_listed caller requestId manifests false
    obtain ⟨_,results,proposal⟩ := apply_answers rfl ok
    refine ⟨response,ok,?_,?_⟩
    · rw [Option.eq_none_iff_forall_ne_some]
      intro audited proposed
      obtain ⟨update,listed⟩ := List.exists_mem_of_ne_nil _ ((proposal audited).mp proposed).2.changes
      obtain ⟨manifest,member,made⟩ := mem_filterMap.mp listed
      obtain ⟨_,bytes,target,updated,_⟩ := processManifest_update.mp made
      have same := ((unchanged_iff _ _).mp (unchanged manifest member)).2
      rw [live_eq target,updated] at same
      cases same
    · rw [results,reported]
      exact List.map_inj_left.mpr unchanged

def Manifest.Declares (manifest : Manifest) : Prop := ∃ spec ∈ manifest.spec, spec.kind = manifest.kind

/-- What was to be created is stored, and so is the value of every secret. -/
structure TakesEffect (decryptAtRest : Bytes → Except SecretError Bytes) (before after : Disk) (manifest : Manifest) :
    Prop where
  created : manifest.Declares → manifest.live before = none → (manifest.live after).isSome
  value : ∀ s value, manifest.kind = "Secret" → manifest.spec = some (.secret s) → s.value = some value →
    ∃ envelope, manifest.live after = some envelope ∧ decryptAtRest envelope = .ok value

/-- Its object is there or written, and the last to write it leaves every field as asked here. -/
structure Repeatable (manifests : List Manifest) (storage : Disk) (manifest : Manifest) : Prop where
  known : manifest.target ≠ none
  plain : ¬manifest.SetsSecret
  created : manifest.Declares → manifest.live storage ≠ none ∨
    ∃ other ∈ manifests, other.object = manifest.object ∧ other.stored storage ≠ none
  agreed : ∀ bytes, lastStored manifests storage manifest.object = some bytes → manifest.stored storage ≠ some bytes →
    manifest.Settled bytes

theorem Repeatable.settled [MessageLaws] (repeatable : Repeatable manifests before.disk manifest)
    (commits : CommitsManifests peer manifests before after) (member : manifest ∈ manifests) :
    manifest.Settled ((manifest.live after.disk).getD []) := by
  rw [commits.left repeatable.known]
  cases last : lastStored manifests before.disk manifest.object with
  | some bytes =>
    by_cases own : manifest.stored before.disk = some bytes
    · obtain ⟨_,updated⟩ := (stored_iff _ _).mp own
      exact written_settled repeatable.plain (merge_updated updated)
    · exact repeatable.agreed bytes last own
  | none =>
    -- nobody wrote the object, so this manifest found it as it asks
    have unwritten : manifest.stored before.disk = none := by
      by_contra wrote
      exact lastStored_ne_none.mpr ⟨manifest,member,rfl,wrote⟩ last
    have clean := (commits.effect.1 manifest member).2
    rw [conflicts_iff repeatable.known,← merge_conflicted_iff] at clean
    rw [Option.none_or]
    cases merged : manifest.merge ((manifest.live before.disk).getD []) [] with
    | updated bytes =>
      rw [(stored_iff _ _).mpr ⟨repeatable.known,merged⟩] at unwritten
      cases unwritten
    | unchanged => exact ((merge_unchanged_iff _ _).mp merged).2
    | conflicted conflicts => exact absurd ⟨conflicts,merged⟩ clean

/-- A committed list is unchanged the second time exactly if all its manifests are repeatable. -/
theorem repeat_unchanged_iff [MessageLaws] {peer : Peer} {manifests : List Manifest} {before after : Node}
    {again : AdminServer} (decryptAtRest : Bytes → Except SecretError Bytes)
    (commits : CommitsManifests peer manifests before after) (own : again.storage = after.disk)
    (admitted : ∀ manifest ∈ manifests, again.Admits peer manifest) :
    (again.Repeats peer manifests ∧
        ∀ manifest ∈ manifests, TakesEffect decryptAtRest before.disk after.disk manifest) ↔
      ∀ manifest ∈ manifests, Repeatable manifests before.disk manifest := by
  have caller : verifyCaller peer = .ok () := by
    obtain ⟨server,requestId,response,_,_,_,ok,_⟩ := commits
    exact (apply_answers rfl ok).1
  rw [repeats_iff caller admitted,own]
  constructor
  · rintro ⟨unchanged,effect⟩ manifest member
    obtain ⟨known,same⟩ := unchanged manifest member
    obtain ⟨plain,settled⟩ := (merge_unchanged_iff _ _).mp same
    rw [commits.left known] at settled
    refine ⟨known,plain,?_,?_⟩
    · intro declares
      exact (commits.present_iff known).mp ((effect manifest member).created declares)
    · intro bytes last _
      rw [last] at settled
      exact settled
  · intro repeatable
    refine ⟨?_,?_⟩
    · intro manifest member
      have one := repeatable manifest member
      exact ⟨one.known,(merge_unchanged_iff _ _).mpr ⟨one.plain,one.settled commits member⟩⟩
    · intro manifest member
      have one := repeatable manifest member
      refine ⟨?_,?_⟩
      · intro declares
        exact (commits.present_iff one.known).mpr (one.created declares)
      · intro s value kind spec set
        exact absurd ⟨s,kind,spec,.inl (by simp [set])⟩ one.plain

end

open Reference

theorem new_image_repeats : (adminServer imageFirst.disk).Repeats fleetctlProxy [shopImage "shop:v1"] ∧
      ∀ manifest ∈ [shopImage "shop:v1"], TakesEffect .ok Disk.empty imageFirst.disk manifest := by
  have commits : CommitsManifests fleetctlProxy [shopImage "shop:v1"] (boot Disk.empty) imageFirst :=
    commits_applied (by decide +kernel) (by decide +kernel) (by decide +kernel)
  refine (repeat_unchanged_iff _ commits rfl (by decide +kernel)).mpr ?_
  intro manifest member
  obtain rfl := mem_singleton.mp member
  refine ⟨by decide,?_,?_,?_⟩
  · rintro ⟨s,kind,_⟩
    revert kind
    decide
  · intro _
    exact .inr ⟨_,mem_singleton_self _,rfl,by decide +kernel⟩
  · intro bytes last other
    simp only [lastStored,List.reverse_singleton,List.findSome?_singleton,if_true] at last
    exact absurd last other

def apiKey : Manifest :=
  ⟨"fleetos.dev/v1alpha1","Secret","api-key","acme",some (.secret ⟨some (asBytes "hunter2"),[]⟩)⟩

def secretApplied : Node := applied (boot Disk.empty) [apiKey]

def betaTenant : Manifest := ⟨"fleetos.dev/v1alpha1","Tenant","beta","",some .tenant⟩

def tenantApplied : Node := applied (boot Disk.empty) [betaTenant,shopImage "shop:v1"]

/-- The secret is stored empty and reported as applied again each time; the tenant is never created. -/
theorem secret_applied_again : CommitsManifests fleetctlProxy [apiKey] (boot Disk.empty) secretApplied ∧
    apiKey.live secretApplied.disk = some [] ∧
    ¬(adminServer secretApplied.disk).Repeats fleetctlProxy [apiKey] ∧
    CommitsManifests fleetctlProxy [betaTenant,shopImage "shop:v1"] (boot Disk.empty) tenantApplied ∧
    betaTenant.live tenantApplied.disk = none := by
  refine ⟨commits_applied (by decide +kernel) (by decide +kernel) (by decide +kernel),by decide +kernel,?_,
    commits_applied (by decide +kernel) (by decide +kernel) (by decide +kernel),by decide +kernel⟩
  intro repeats
  obtain ⟨known,same⟩ := (repeats_iff rfl (by decide +kernel)).mp repeats apiKey (mem_singleton_self _)
  revert same
  decide +kernel

end FleetosControl
