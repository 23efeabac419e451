import FleetosControl.Admin.Workloads
import FleetosControl.Apply.Sequence
import FleetosControl.Controllers.Workload

/-! What readers find after an apply, and what the merges make of each field: it agrees, is out of
date, or conflicts. Five fields are never looked at. -/
namespace FleetosControl
open Wire Manifests

/-- The template with every field replaced that the manifest sets, the ones that the controllers assign apart. -/
def PodSpec.overlay (pod set : PodSpec) : PodSpec :=
  { pod with
    resources := set.resources.or pod.resources
    env := if set.env.isEmpty then pod.env else set.env
    labels := if set.labels.isEmpty then pod.labels else set.labels
    priority := if set.priority = 0 then pod.priority else set.priority
    tolerations := if set.tolerations.isEmpty then pod.tolerations else set.tolerations
    initContainers := if set.initContainers.isEmpty then pod.initContainers else set.initContainers
    unread := if set.unread.isEmpty then pod.unread else set.unread }

def WorkloadSpec.overlay (spec : WorkloadSpec) (manifest : ManifestWorkloadSpec) : WorkloadSpec :=
  { spec with
    image := manifest.image.getD spec.image
    replicas := if manifest.replicas.isEmpty then spec.replicas else manifest.replicas
    podSpec := match manifest.podSpec with
      | some set => some ((spec.podSpec.getD {}).overlay set)
      | none => spec.podSpec
    placement := manifest.placement.getD spec.placement
    updateStrategy := manifest.updateStrategy.or spec.updateStrategy
    autoscaling := manifest.autoscaling.or spec.autoscaling }

section
variable [FleetosCore] [Formats] [WorkloadMessages]

/-- The two forms in which a workload is stored: by the requests, and by an earlier apply. -/
inductive StoredAs (spec : WorkloadSpec) : Bytes → Prop where
  | record (record : WorkloadSpecRecord) : record.specBytes = encodeWorkloadSpec spec → StoredAs spec (toAllocvec record)
  | message : StoredAs spec (encodeWorkloadSpec spec)

theorem storedSpec_record {record : WorkloadSpecRecord} (holds : record.specBytes = encodeWorkloadSpec spec) :
    storedSpec (toAllocvec record) = some spec := by
  rw [storedSpec_some]
  exact ⟨record,by simp,by simp [holds]⟩

/-- Neither form happens to read as the other. -/
class FormsApart : Prop where
  storedSpec_message : ∀ spec, storedSpec (encodeWorkloadSpec spec) = none
  decode_record : ∀ record : WorkloadSpecRecord, (decodeWorkloadSpec (toAllocvec record)).toOption = none

variable [ManifestMessages]

def leftBy (wanted : ManifestWorkloadSpec) (bytes : Bytes) : Bytes :=
  match mergeWorkload wanted bytes [] with
  | .updated written => written
  | _ => bytes

theorem applied_left {front back} {manifest : Manifest} {before : Node} (kind : manifest.kind = "Workload")
    (set : manifest.spec = some (.workload wanted))
    (found : (before.disk .workloads)[workloadKey manifest.tenantId manifest.name]? = some bytes)
    (alone : ∀ other ∈ front ++ back, other.object ≠ manifest.object)
    (applies : AppliesManifests peer (front ++ manifest::back) before after) :
    lookupWorkloadSpec after.disk manifest.tenantId manifest.name = storedSpec (leftBy wanted bytes) ∧
      ∀ conflicts, mergeWorkload wanted bytes [] ≠ .conflicted conflicts := by
  have target : manifest.target = some (.workloads,"workloads",workloadKey manifest.tenantId manifest.name) := by
    simp [Manifest.target,kind,workloadKey]
  have merge : manifest.merge bytes [] = mergeWorkload wanted bytes [] := by
    simp only [Manifest.merge,kind,set]
    rfl
  constructor
  · have written : (manifest.stored before.disk).or (some bytes) = some (leftBy wanted bytes) := by
      unfold Manifest.stored processManifest leftBy
      simp only [target,found,Option.getD_some,merge]
      cases mergeWorkload wanted bytes [] <;> rfl
    rw [lookupWorkloadSpec,applies.lookup alone target,found,written]
    rfl
  · intro conflicts outcome
    have agreed := (applies.effect.1 manifest (by simp)).2.2
    refine absurd ?_ agreed
    unfold Conflicts processManifest
    simp only [target,found,Option.getD_some,merge,outcome]
    rfl

/-- The readers find the overlaid specification exactly if a record is stored, and the manifest sets nothing but
defaults that the specification has already: the merge takes a record for an empty message. -/
theorem applied_workload_read_iff [FormsApart] {peer : Peer} {front back : List Manifest} {manifest : Manifest}
    {wanted : ManifestWorkloadSpec} {spec : WorkloadSpec} {bytes : Bytes} {before after : Node}
    (kind : manifest.kind = "Workload") (set : manifest.spec = some (.workload wanted))
    (found : (before.disk .workloads)[workloadKey manifest.tenantId manifest.name]? = some bytes)
    (form : StoredAs spec bytes) (alone : ∀ other ∈ front ++ back, other.object ≠ manifest.object)
    (applies : AppliesManifests peer (front ++ manifest::back) before after) :
    lookupWorkloadSpec after.disk manifest.tenantId manifest.name = some (spec.overlay wanted) ↔
      (∃ record : WorkloadSpecRecord, bytes = toAllocvec record) ∧ WorkloadSpec.Fields Merging.idle {} wanted ∧
        spec.overlay wanted = spec := by
  obtain ⟨left,agreed⟩ := applied_left kind set found alone applies
  have blank : ∀ record : WorkloadSpecRecord, liveWorkload (toAllocvec record) = {} := fun record => by
    simp [liveWorkload,FormsApart.decode_record]
  rw [left]
  constructor
  · intro read
    cases outcome : mergeWorkload wanted bytes [] with
    | updated written =>
      rw [leftBy,outcome,mergeWorkload_updated outcome,FormsApart.storedSpec_message] at read
      cases read
    | unchanged =>
      rw [leftBy,outcome] at read
      cases form with
      | record record holds =>
        have idle := (mergeWorkload_unchanged_iff wanted _).mp outcome
        rw [blank] at idle
        exact ⟨⟨record,rfl⟩,idle,Option.some.inj (read.symm.trans (storedSpec_record holds))⟩
      | message =>
        rw [FormsApart.storedSpec_message] at read
        cases read
    | conflicted conflicts => exact absurd outcome (agreed conflicts)
  · rintro ⟨⟨record,same⟩,idle,restated⟩
    have unchanged : mergeWorkload wanted bytes [] = .unchanged := by
      rw [mergeWorkload_unchanged_iff,same,blank]
      exact idle
    rw [leftBy,unchanged,restated]
    cases form with
    | record _ holds => exact storedSpec_record holds
    | message =>
      have apart := FormsApart.decode_record record
      rw [← same,WorkloadMessages.decode_encode] at apart
      cases apart

end

section
open Reference

theorem tag_starts_no_record (rest : Bytes) : workloadSpecRecord.decode (1::194::128::rest) = none := rfl

instance formsApart : FormsApart where
  storedSpec_message _ := rfl
  decode_record record := by
    have read := workloadSpecRecord.decode_encode record []
    rw [List.append_nil] at read
    change (decodeMessage workloadSpec {} (workloadSpecRecord.encode record)).toOption = none
    unfold decodeMessage
    split
    case h_1 none =>
      rw [none] at read
      cases read
    case h_2 fields tagged =>
      rw [tagged,tag_starts_no_record] at read
      cases read
    case h_3 => rfl

def submitted : Node :=
  (apply (boot Disk.empty) [commandAt 1
    (.submitWorkloadSpec ⟨"acme","shop",encodeWorkloadSpec (shopSpec "web" 1),[]⟩)]).1

def emptyManifest : Manifest := workloadManifest "acme" "shop" {}

def newImage : Manifest := shopImage "registry.example/shop:v2"

theorem empty_manifest_read_back :
    lookupWorkloadSpec (applied submitted [emptyManifest]).disk emptyManifest.tenantId emptyManifest.name =
      some ((shopSpec "web" 1).overlay {}) := by
  have applies : AppliesManifests fleetctlProxy ([] ++ emptyManifest::[]) submitted (applied submitted [emptyManifest]) :=
    applied_applies (by decide +kernel)
  have alone : ∀ other ∈ ([] ++ [] : List Manifest), other.object ≠ emptyManifest.object := by simp
  have form : StoredAs (shopSpec "web" 1)
    (toAllocvec (⟨"acme","shop",encodeWorkloadSpec (shopSpec "web" 1),[]⟩ : WorkloadSpecRecord)) := .record _ rfl
  refine (applied_workload_read_iff rfl rfl (by decide +kernel) form alone applies).mpr ⟨⟨_,rfl⟩,?_,?_⟩
  · exact (mergeWorkload_unchanged_iff _ []).mp (by decide +kernel)
  · decide +kernel

/-- After a new image was applied to a submitted workload, no reader finds the workload any more. -/
theorem new_image_hides_workload : lookupWorkloadSpec submitted.disk "acme" "shop" = some (shopSpec "web" 1) ∧
    AppliesManifests fleetctlProxy [newImage] submitted (applied submitted [newImage]) ∧
    lookupWorkloadSpec (applied submitted [newImage]).disk "acme" "shop" = none ∧
    decodedWorkloads (applied submitted [newImage]).disk = [] := by
  refine ⟨by decide +kernel,applied_applies (by decide +kernel),by decide +kernel,by decide +kernel⟩

end

inductive Verdict where
  | agreed | outdated | conflicting
  deriving DecidableEq

namespace Verdict
variable {α : Type} [DecidableEq α]

def of (live last : α) : Option α → Verdict
  | none => .agreed
  | some value => if live = value then .agreed else if live = last then .outdated else .conflicting

theorem of_agreed_iff {live last : α} {wanted : Option α} : of live last wanted = .agreed ↔ ∀ value ∈ wanted, live = value := by
  cases wanted with
  | none => simp [of]
  | some value =>
    by_cases same : live = value
    · simp [of,same]
    · by_cases kept : live = last <;> simp [of,same,kept]

def paths (verdict : Verdict) (path : String) : List String := if verdict = .conflicting then [path] else []

theorem mem_paths {verdict : Verdict} : name ∈ verdict.paths path ↔ path = name ∧ verdict = .conflicting := by
  cases verdict <;> simp [paths,eq_comm]

end Verdict

namespace Merging
variable {σ α : Type}

def paths (merging : Merging σ) : List String := merging.conflicts.map (·.fieldPath)

section
variable [DecidableEq α] (merging : Merging σ) (path : String) (text written : α → String) (get : σ → α)
  (set : σ → α → σ) (last : α) (wanted : Option α)

theorem field_verdict : (merging.field path text written get set last wanted).paths =
      merging.paths ++ (Verdict.of (get merging.live) last wanted).paths path ∧
    (merging.field path text written get set last wanted).changed =
      (merging.changed || Verdict.of (get merging.live) last wanted == .outdated) := by
  cases wanted with
  | none => simp [field,Verdict.of,Verdict.paths]
  | some value =>
    by_cases same : get merging.live = value
    · simp [field,Verdict.of,Verdict.paths,paths,same]
    · by_cases kept : get merging.live = last
      · rw [kept] at same
        simp [field,Verdict.of,Verdict.paths,paths,same,kept]
      · simp [field,Verdict.of,Verdict.paths,paths,same,kept]

end

theorem outcome_conflicted {merging : Merging σ} {encode : σ → Bytes} {conflicts}
    (conflicted : merging.outcome encode = .conflicted conflicts) : conflicts = merging.conflicts := by
  unfold outcome at conflicted
  split at conflicted
  · cases conflicted
    rfl
  · split at conflicted <;> cases conflicted

/-- A merge whose fields have these verdicts, and what it leaves if none of them is a conflict. -/
structure Tallied {φ : Type} (merging : Merging σ) (fields : List φ) (path : φ → String) (verdict : φ → Verdict)
    (replaced : σ) : Prop where
  paths : merging.paths = fields.flatMap fun field => (verdict field).paths (path field)
  changed : merging.changed = fields.any fun field => verdict field == .outdated
  clean : merging.conflicts = [] → merging.live = replaced

namespace Tallied
variable {φ : Type} {merging : Merging σ} {fields : List φ} {path : φ → String} {verdict : φ → Verdict} {replaced : σ}
  (tallied : merging.Tallied fields path verdict replaced) (encode : σ → Bytes)
include tallied

theorem mem_paths : name ∈ merging.paths ↔ ∃ field ∈ fields, path field = name ∧ verdict field = .conflicting := by
  simp only [tallied.paths,mem_flatMap,Verdict.mem_paths]

theorem paths_nodup (distinct : (fields.map path).Nodup) : merging.paths.Nodup := by
  have kept : ∀ rest : List φ, (rest.flatMap fun field => (verdict field).paths (path field)).Sublist (rest.map path) := by
    intro rest
    induction rest with
    | nil => exact .slnil
    | cons field rest ih =>
      rw [List.flatMap_cons,List.map_cons,← List.singleton_append]
      refine List.Sublist.append ?_ ih
      unfold Verdict.paths
      split
      · exact List.Sublist.refl _
      · exact List.nil_sublist _
  rw [tallied.paths]
  exact (kept fields).nodup distinct

theorem conflicts_nil_iff : merging.conflicts = [] ↔ ∀ field ∈ fields, verdict field ≠ .conflicting := by
  have empty : merging.conflicts = [] ↔ merging.paths = [] := List.map_eq_nil_iff.symm
  rw [empty,List.eq_nil_iff_forall_not_mem]
  constructor
  · intro none field member conflicting
    exact none (path field) (tallied.mem_paths.mpr ⟨field,member,rfl,conflicting⟩)
  · intro none name member
    obtain ⟨field,member,_,conflicting⟩ := tallied.mem_paths.mp member
    exact none field member conflicting

theorem conflicted {field} (member : field ∈ fields) (conflicting : verdict field = .conflicting) :
    merging.outcome encode = .conflicted merging.conflicts := by
  have some : merging.conflicts ≠ [] := fun none => tallied.conflicts_nil_iff.mp none field member conflicting
  simp [outcome,some]

theorem settled (free : ∀ field ∈ fields, verdict field ≠ .conflicting) : merging.outcome encode =
      if ∀ field ∈ fields, verdict field = .agreed then .unchanged else .updated (encode replaced) := by
  have none := tallied.conflicts_nil_iff.mpr free
  have live := tallied.clean none
  by_cases agreed : ∀ field ∈ fields, verdict field = .agreed
  · have still : merging.changed = false := by
      rw [tallied.changed,List.any_eq_false]
      intro field member
      simp [agreed field member]
    rw [if_pos agreed]
    simp [outcome,none,still]
  · rw [if_neg agreed]
    push Not at agreed
    obtain ⟨field,member,differs⟩ := agreed
    have outdated : verdict field = .outdated := by
      cases found : verdict field with
      | agreed => exact absurd found differs
      | outdated => rfl
      | conflicting => exact absurd found (free field member)
    have moved : merging.changed = true := by
      rw [tallied.changed,List.any_eq_true]
      exact ⟨field,member,by simp [outdated]⟩
    simp [outcome,none,moved,live]

theorem unchanged_iff : merging.outcome encode = .unchanged ↔ ∀ field ∈ fields, verdict field = .agreed := by
  by_cases free : ∀ field ∈ fields, verdict field ≠ .conflicting
  · rw [tallied.settled encode free]
    split <;> simp_all
  · push Not at free
    obtain ⟨field,member,conflicting⟩ := free
    rw [tallied.conflicted encode member conflicting]
    refine iff_of_false (by simp) fun agreed => ?_
    cases conflicting.symm.trans (agreed field member)

end Tallied

end Merging

export Merging (field_verdict)

/-- What is asked of a merge, from the verdicts on all fields that can be set. -/
structure MergedRightly {φ σ : Type} (path : φ → String) (verdict : φ → Verdict) (decode : Bytes → Except String σ)
    (replaced : σ) (merge : Bytes → Bytes → MergeOutcome) (liveBytes lastAppliedBytes : Bytes) : Prop where
  /-- All fields in conflict are reported, each once, and no other. -/
  conflicted : (∃ field, verdict field = .conflicting) → ∃ conflicts,
    merge liveBytes lastAppliedBytes = .conflicted conflicts ∧ (conflicts.map (·.fieldPath)).Nodup ∧
      ∀ name, name ∈ conflicts.map (·.fieldPath) ↔ ∃ field, path field = name ∧ verdict field = .conflicting
  unchanged : (∀ field, verdict field = .agreed) → merge liveBytes lastAppliedBytes = .unchanged
  updated : (∀ field, verdict field ≠ .conflicting) → (∃ field, verdict field = .outdated) → ∃ bytes,
    merge liveBytes lastAppliedBytes = .updated bytes ∧ decode bytes = .ok replaced
  /-- The same manifest once more, whatever the baseline. -/
  again : ∀ baseline, (∀ bytes, merge liveBytes lastAppliedBytes = .updated bytes → merge bytes baseline = .unchanged) ∧
    (merge liveBytes lastAppliedBytes = .unchanged → merge liveBytes baseline = .unchanged)

theorem Merging.Tallied.mergedRightly {φ σ : Type} {merging : Merging σ} {fields} {path : φ → String}
    {verdict : φ → Verdict} {replaced overlaid} (tallied : merging.Tallied fields path verdict replaced)
    {encode : σ → Bytes} {decode : Bytes → Except String σ} {merge : Bytes → Bytes → MergeOutcome}
    {liveBytes lastAppliedBytes} (outcome : merge liveBytes lastAppliedBytes = merging.outcome encode)
    (distinct : (fields.map path).Nodup) (rest : ∀ field, field ∉ fields → verdict field = .agreed ∨
      verdict field = .outdated ∧ ∃ other ∈ fields, verdict other = .conflicting)
    (decoded : (∀ field, field ∉ fields → verdict field = .agreed) → decode (encode replaced) = .ok overlaid)
    (repeated : ∀ baseline, merge (encode replaced) baseline = .unchanged)
    (still : (∀ field ∈ fields, verdict field = .agreed) → ∀ baseline, merge liveBytes baseline = .unchanged) :
    MergedRightly path verdict decode overlaid merge liveBytes lastAppliedBytes := by
  have listed : ∀ field, verdict field = .conflicting → field ∈ fields := by
    intro field conflicting
    by_contra other
    rcases rest field other with agreed | ⟨outdated,_⟩
    · cases conflicting.symm.trans agreed
    · cases conflicting.symm.trans outdated
  have quiet : (∀ field ∈ fields, verdict field ≠ .conflicting) → ∀ field, field ∉ fields → verdict field = .agreed := by
    intro free field other
    rcases rest field other with agreed | ⟨_,conflict,member,conflicting⟩
    · exact agreed
    · exact absurd conflicting (free conflict member)
  refine ⟨?_,?_,?_,?_⟩
  · rintro ⟨field,conflicting⟩
    refine ⟨_,outcome.trans (tallied.conflicted encode (listed field conflicting) conflicting),
      tallied.paths_nodup distinct,fun name => ?_⟩
    refine tallied.mem_paths.trans ⟨fun ⟨other,_,found⟩ => ⟨other,found⟩,fun ⟨other,found⟩ => ?_⟩
    exact ⟨other,listed other found.2,found⟩
  · intro agreed
    exact outcome.trans ((tallied.unchanged_iff encode).mpr fun field _ => agreed field)
  · rintro free ⟨field,outdated⟩
    have clean : ∀ field ∈ fields, verdict field ≠ .conflicting := fun field _ => free field
    have differs : ¬∀ field ∈ fields, verdict field = .agreed := by
      intro agreed
      by_cases member : field ∈ fields
      · cases outdated.symm.trans (agreed field member)
      · cases outdated.symm.trans (quiet clean field member)
    refine ⟨encode replaced,?_,decoded (quiet clean)⟩
    rw [outcome,tallied.settled encode clean,if_neg differs]
  · intro baseline
    constructor
    · intro bytes updated
      obtain ⟨clean,rfl⟩ := outcome_updated (outcome.symm.trans updated)
      rw [tallied.clean clean]
      exact repeated baseline
    · intro unchanged
      exact still ((tallied.unchanged_iff encode).mp (outcome.symm.trans unchanged)) baseline

inductive WorkloadField where
  | image | replicas | resources | env | labels | placement | autoscaling
  | updateStrategy | priority | tolerations | initContainers | unread
  deriving DecidableEq

namespace WorkloadField

def merged : List WorkloadField := [.image,.replicas,.resources,.env,.labels,.placement,.autoscaling]

-- the rest of the template has no name in the source and is one field here
def path : WorkloadField → String
  | .image => "image"
  | .replicas => "replicas"
  | .resources => "pod_spec.resources"
  | .env => "pod_spec.env"
  | .labels => "pod_spec.labels"
  | .placement => "placement"
  | .autoscaling => "autoscaling"
  | .updateStrategy => "update_strategy"
  | .priority => "pod_spec.priority"
  | .tolerations => "pod_spec.tolerations"
  | .initContainers => "pod_spec.init_containers"
  | .unread => "pod_spec"

theorem path_injective {left right : WorkloadField} (same : left.path = right.path) : left = right := by
  cases left <;> cases right <;> first | rfl | (revert same; decide)

section
variable (live : WorkloadSpec) (last manifest : ManifestWorkloadSpec)

/-- The verdict on a field of the template: one that is missing is read as an empty one. -/
def podVerdict {α : Type} [DecidableEq α] (get : PodSpec → α) (wanted : PodSpec → Option α) : Verdict :=
  .of (get (live.podSpec.getD {})) (get (last.podSpec.getD {})) (manifest.podSpec.bind wanted)

def verdict : WorkloadField → Verdict
  | .image => .of live.image (last.image.getD "") manifest.image
  | .replicas => .of live.replicas last.replicas (unlessEmpty manifest.replicas.isEmpty manifest.replicas)
  | .resources => podVerdict live last manifest (·.resources) (·.resources.map some)
  | .env => podVerdict live last manifest (·.env) fun pod => unlessEmpty pod.env.isEmpty pod.env
  | .labels => podVerdict live last manifest (·.labels) fun pod => unlessEmpty pod.labels.isEmpty pod.labels
  | .placement => .of live.placement (last.placement.getD 0) manifest.placement
  | .autoscaling => .of live.autoscaling last.autoscaling (manifest.autoscaling.map some)
  | .updateStrategy => .of live.updateStrategy last.updateStrategy (manifest.updateStrategy.map some)
  | .priority => podVerdict live last manifest (·.priority) fun pod => unlessEmpty (pod.priority = 0) pod.priority
  | .tolerations => podVerdict live last manifest (·.tolerations) fun pod => unlessEmpty pod.tolerations.isEmpty pod.tolerations
  | .initContainers =>
    podVerdict live last manifest (·.initContainers) fun pod => unlessEmpty pod.initContainers.isEmpty pod.initContainers
  | .unread => podVerdict live last manifest (·.unread) fun pod => unlessEmpty pod.unread.isEmpty pod.unread

end

end WorkloadField

export WorkloadField (podVerdict)

theorem workload_agreed_iff (live : WorkloadSpec) (last manifest : ManifestWorkloadSpec) :
    (∀ field ∈ WorkloadField.merged, field.verdict live last manifest = .agreed) ↔ live.Fields Merging.idle manifest := by
  unfold WorkloadField.merged WorkloadSpec.Fields PodSpec.Fields Merging.idle
  cases asked : manifest.podSpec with
  | none => simp [WorkloadField.verdict,podVerdict,Verdict.of_agreed_iff,asked]
  | some pod =>
    simp only [WorkloadField.verdict,podVerdict,Verdict.of_agreed_iff,asked,Option.bind_some,mem_cons,
      not_mem_nil,or_false,forall_eq_or_imp,forall_eq,Option.mem_some_iff,forall_eq',and_assoc]

theorem unlessEmpty_getD {α : Type} {empty : Bool} {live value : α} :
    (unlessEmpty empty value).getD live = if empty then live else value := by
  cases empty <;> rfl

theorem unlessEmpty_agrees {α : Type} {empty : Bool} {live value : α} :
    (if empty then live else value) = live ↔ ∀ wanted ∈ unlessEmpty empty value, live = wanted := by
  cases empty <;> simp [unlessEmpty,eq_comm]

theorem or_agrees {α : Type} {live wanted : Option α} :
    wanted.or live = live ↔ ∀ value, wanted = some value → live = some value := by
  cases wanted <;> simp [eq_comm]

theorem PodSpec.overlay_eq_merged_iff (pod set : PodSpec) : pod.overlay set = pod.merged set ↔
    (∀ wanted ∈ unlessEmpty (set.priority = 0) set.priority, pod.priority = wanted) ∧
      (∀ wanted ∈ unlessEmpty set.tolerations.isEmpty set.tolerations, pod.tolerations = wanted) ∧
      (∀ wanted ∈ unlessEmpty set.initContainers.isEmpty set.initContainers, pod.initContainers = wanted) ∧
      ∀ wanted ∈ unlessEmpty set.unread.isEmpty set.unread, pod.unread = wanted := by
  rw [← unlessEmpty_agrees,← unlessEmpty_agrees,← unlessEmpty_agrees,← unlessEmpty_agrees]
  simp [PodSpec.overlay,PodSpec.merged,unlessEmpty_getD]

theorem overlay_eq_merged_iff (live : WorkloadSpec) (last manifest : ManifestWorkloadSpec) :
    live.overlay manifest = live.merged manifest ↔
      ∀ field, field ∉ WorkloadField.merged → field.verdict live last manifest = .agreed := by
  have rest : (∀ field, field ∉ WorkloadField.merged → field.verdict live last manifest = .agreed) ↔
      WorkloadField.updateStrategy.verdict live last manifest = .agreed ∧
        WorkloadField.priority.verdict live last manifest = .agreed ∧
        WorkloadField.tolerations.verdict live last manifest = .agreed ∧
        WorkloadField.initContainers.verdict live last manifest = .agreed ∧
        WorkloadField.unread.verdict live last manifest = .agreed := by
    constructor
    · intro agreed
      exact ⟨agreed _ (by decide),agreed _ (by decide),agreed _ (by decide),agreed _ (by decide),agreed _ (by decide)⟩
    · rintro ⟨_,_,_,_,_⟩ field other
      cases field <;> first | assumption | exact absurd (by decide) other
  rw [rest]
  cases asked : manifest.podSpec with
  | none =>
    simp [WorkloadSpec.overlay,WorkloadSpec.merged,WorkloadField.verdict,podVerdict,Verdict.of_agreed_iff,
      asked,unlessEmpty_getD,or_agrees]
  | some pod =>
    simp only [WorkloadSpec.overlay,WorkloadSpec.merged,WorkloadField.verdict,podVerdict,
      Verdict.of_agreed_iff,asked,unlessEmpty_getD,WorkloadSpec.mk.injEq,Option.map_some,Option.some_or,Option.some.injEq,
      PodSpec.overlay_eq_merged_iff,Option.bind_some]
    simp [or_agrees,and_comm]

inductive SagRuleField where
  | fromSide | toSide | action
  deriving DecidableEq

namespace SagRuleField

def all : List SagRuleField := [.fromSide,.toSide,.action]

def path : SagRuleField → String
  | .fromSide => "from"
  | .toSide => "to"
  | .action => "action"

def verdict (live last : SagRule) (manifest : ManifestSagRuleSpec) : SagRuleField → Verdict
  | .fromSide => .of live.fromSide last.fromSide (manifest.fromSide.map some)
  | .toSide => .of live.toSide last.toSide (manifest.toSide.map some)
  | .action => .of live.action last.action manifest.action

end SagRuleField

theorem rule_agreed_iff (live last : SagRule) (manifest : ManifestSagRuleSpec) :
    (∀ field ∈ SagRuleField.all, field.verdict live last manifest = .agreed) ↔ live.Fields Merging.idle manifest := by
  simp [SagRuleField.all,SagRule.Fields,Merging.idle,SagRuleField.verdict,Verdict.of_agreed_iff]

section
variable [ManifestMessages]

theorem mergePodSpec_verdict (manifestPod lastPod : PodSpec) (merging : Merging PodSpec) :
    (mergePodSpec manifestPod lastPod merging).paths = merging.paths ++
        (Verdict.of merging.live.resources lastPod.resources (manifestPod.resources.map some)).paths "pod_spec.resources" ++
        (Verdict.of merging.live.env lastPod.env (unlessEmpty manifestPod.env.isEmpty manifestPod.env)).paths "pod_spec.env" ++
        (Verdict.of merging.live.labels lastPod.labels (unlessEmpty manifestPod.labels.isEmpty manifestPod.labels)).paths
          "pod_spec.labels" ∧
      (mergePodSpec manifestPod lastPod merging).changed = (merging.changed ||
        Verdict.of merging.live.resources lastPod.resources (manifestPod.resources.map some) == .outdated ||
        Verdict.of merging.live.env lastPod.env (unlessEmpty manifestPod.env.isEmpty manifestPod.env) == .outdated ||
        Verdict.of merging.live.labels lastPod.labels (unlessEmpty manifestPod.labels.isEmpty manifestPod.labels) ==
          .outdated) := by
  unfold mergePodSpec
  simp only [(field_verdict _ _ _ _ _ _ _ _).1,(field_verdict _ _ _ _ _ _ _ _).2,
    field_keeps PodSpec.labels,field_keeps PodSpec.env,implies_true,and_self]

section
variable (manifest last : ManifestWorkloadSpec) (live : WorkloadSpec)

theorem mergePodTemplate_verdict (merging : Merging WorkloadSpec) :
    (mergePodTemplate manifest.podSpec (last.podSpec.getD {}) merging).paths = merging.paths ++
        [WorkloadField.resources,.env,.labels].flatMap (fun field =>
        (field.verdict merging.live last manifest).paths field.path) ∧
      (mergePodTemplate manifest.podSpec (last.podSpec.getD {}) merging).changed = (merging.changed ||
        [WorkloadField.resources,.env,.labels].any fun field => field.verdict merging.live last manifest == .outdated) := by
  cases asked : manifest.podSpec with
  | none => simp [mergePodTemplate,WorkloadField.verdict,podVerdict,asked,Verdict.of,Verdict.paths]
  | some pod =>
    obtain ⟨paths,changed⟩ := mergePodSpec_verdict pod (last.podSpec.getD {})
      ⟨merging.live.podSpec.getD {},merging.conflicts,merging.changed⟩
    constructor
    · refine paths.trans ?_
      simp [WorkloadField.verdict,podVerdict,WorkloadField.path,asked,Merging.paths]
    · refine changed.trans ?_
      simp [WorkloadField.verdict,podVerdict,asked,Bool.or_assoc]

theorem mergeWorkloadFields_tallied : (mergeWorkloadFields manifest last live).Tallied WorkloadField.merged
    WorkloadField.path (WorkloadField.verdict live last manifest) (live.merged manifest) where
  paths := by
    unfold mergeWorkloadFields
    simp only [(field_verdict _ _ _ _ _ _ _ _).1,(mergePodTemplate_verdict _ _ _).1,
      mergePodTemplate_keeps WorkloadSpec.autoscaling,mergePodTemplate_keeps WorkloadSpec.placement,
      field_keeps WorkloadSpec.autoscaling,field_keeps WorkloadSpec.placement,
      field_keeps WorkloadSpec.replicas,implies_true]
    simp [WorkloadField.merged,WorkloadField.verdict,podVerdict,WorkloadField.path,Merging.paths,
      field_keeps WorkloadSpec.podSpec]
  changed := by
    unfold mergeWorkloadFields
    simp only [(field_verdict _ _ _ _ _ _ _ _).2,(mergePodTemplate_verdict _ _ _).2,
      mergePodTemplate_keeps WorkloadSpec.autoscaling,mergePodTemplate_keeps WorkloadSpec.placement,
      field_keeps WorkloadSpec.autoscaling,field_keeps WorkloadSpec.placement,
      field_keeps WorkloadSpec.replicas,implies_true]
    simp [WorkloadField.merged,WorkloadField.verdict,podVerdict,Bool.or_assoc,
      field_keeps WorkloadSpec.podSpec]
  clean := mergeWorkloadFields_clean

end

theorem mergeSagRuleFields_tallied (manifest : ManifestSagRuleSpec) (last live : SagRule) :
    (mergeSagRuleFields manifest last live).Tallied SagRuleField.all SagRuleField.path
      (SagRuleField.verdict live last manifest) (live.merged manifest) where
  paths := by
    unfold mergeSagRuleFields
    simp only [(field_verdict _ _ _ _ _ _ _ _).1,field_keeps SagRule.action,
      field_keeps SagRule.toSide,implies_true]
    simp [SagRuleField.all,SagRuleField.verdict,SagRuleField.path,Merging.paths]
  changed := by
    unfold mergeSagRuleFields
    simp only [(field_verdict _ _ _ _ _ _ _ _).2,field_keeps SagRule.action,
      field_keeps SagRule.toSide,implies_true]
    simp [SagRuleField.all,SagRuleField.verdict,Bool.or_assoc]
  clean := mergeSagRuleFields_clean

end

section
variable [FleetosCore] [WorkloadMessages] [ManifestMessages]

def lastWorkload (lastAppliedBytes : Bytes) : ManifestWorkloadSpec :=
  if lastAppliedBytes.isEmpty then {} else (decodeManifestWorkloadSpec lastAppliedBytes).toOption.getD {}

def workloadVerdict (manifest : ManifestWorkloadSpec) (liveBytes lastAppliedBytes : Bytes) (field : WorkloadField) :
    Verdict := field.verdict (liveWorkload liveBytes) (lastWorkload lastAppliedBytes) manifest

def ruleVerdict (manifest : ManifestSagRuleSpec) (liveBytes lastAppliedBytes : Bytes) (field : SagRuleField) : Verdict :=
  field.verdict (liveSagRule liveBytes) (liveSagRule lastAppliedBytes) manifest

theorem mergeWorkload_unchanged (manifest : ManifestWorkloadSpec) (liveBytes lastAppliedBytes : Bytes) :
    mergeWorkload manifest liveBytes lastAppliedBytes = .unchanged ↔
      (liveWorkload liveBytes).Fields Merging.idle manifest :=
  ((mergeWorkloadFields_tallied manifest (lastWorkload lastAppliedBytes) _).unchanged_iff _).trans
    (workload_agreed_iff _ _ _)

omit [FleetosCore] [WorkloadMessages] in
theorem mergeSagRule_unchanged (manifest : ManifestSagRuleSpec) (liveBytes lastAppliedBytes : Bytes) :
    mergeSagRule manifest liveBytes lastAppliedBytes = .unchanged ↔
      (liveSagRule liveBytes).Fields Merging.idle manifest :=
  ((mergeSagRuleFields_tallied manifest _ _).unchanged_iff _).trans (rule_agreed_iff _ _ _)

/-- What is set of the other fields is there already, or waits for a conflict. -/
def NothingOverlooked (verdict : WorkloadField → Verdict) : Prop :=
  ∀ field, field ∉ WorkloadField.merged → verdict field = .agreed ∨
    verdict field = .outdated ∧ ∃ other ∈ WorkloadField.merged, verdict other = .conflicting

variable [MessageLaws]

theorem mergeWorkload_rightly_iff (manifest : ManifestWorkloadSpec) (liveBytes lastAppliedBytes : Bytes) :
    MergedRightly WorkloadField.path (workloadVerdict manifest liveBytes lastAppliedBytes) decodeWorkloadSpec
        ((liveWorkload liveBytes).overlay manifest) (mergeWorkload manifest) liveBytes lastAppliedBytes ↔
      NothingOverlooked (workloadVerdict manifest liveBytes lastAppliedBytes) := by
  have tallied := mergeWorkloadFields_tallied manifest (lastWorkload lastAppliedBytes) (liveWorkload liveBytes)
  have outcome : mergeWorkload manifest liveBytes lastAppliedBytes =
    (mergeWorkloadFields manifest (lastWorkload lastAppliedBytes) (liveWorkload liveBytes)).outcome encodeWorkloadSpec := rfl
  have replaced := overlay_eq_merged_iff (liveWorkload liveBytes) (lastWorkload lastAppliedBytes) manifest
  constructor
  · intro rightly
    have unreported : ∀ field, field ∉ WorkloadField.merged →
        workloadVerdict manifest liveBytes lastAppliedBytes field ≠ .conflicting := by
      intro field other conflicting
      obtain ⟨conflicts,reported,_,names⟩ := rightly.conflicted ⟨field,conflicting⟩
      obtain rfl := Merging.outcome_conflicted (outcome.symm.trans reported)
      obtain ⟨seen,member,path,_⟩ := tallied.mem_paths.mp ((names field.path).mpr ⟨field,rfl,conflicting⟩)
      exact other (WorkloadField.path_injective path ▸ member)
    intro field other
    cases found : workloadVerdict manifest liveBytes lastAppliedBytes field with
    | agreed => exact .inl rfl
    | conflicting => exact absurd found (unreported field other)
    | outdated =>
      refine .inr ⟨rfl,?_⟩
      by_contra free
      push Not at free
      have none : ∀ field, workloadVerdict manifest liveBytes lastAppliedBytes field ≠ .conflicting := by
        intro field
        by_cases member : field ∈ WorkloadField.merged
        · exact free field member
        · exact unreported field member
      obtain ⟨bytes,updated,decoded⟩ := rightly.updated none ⟨field,found⟩
      obtain ⟨clean,rfl⟩ := outcome_updated (outcome.symm.trans updated)
      rw [tallied.clean clean,WorkloadMessages.decode_encode,Except.ok.injEq] at decoded
      cases found.symm.trans (replaced.mp decoded.symm field other)
  · intro rest
    refine tallied.mergedRightly outcome (by decide) rest ?_ ?_ ?_
    · intro agreed
      rw [replaced.mpr agreed]
      simp
    · intro baseline
      rw [mergeWorkload_unchanged,liveWorkload_encode]
      exact WorkloadSpec.merged_idle _ _
    · intro agreed baseline
      exact (mergeWorkload_unchanged _ _ _).mpr ((workload_agreed_iff _ _ _).mp agreed)

theorem mergeSagRule_rightly (manifest : ManifestSagRuleSpec) (liveBytes lastAppliedBytes : Bytes) :
    MergedRightly SagRuleField.path (ruleVerdict manifest liveBytes lastAppliedBytes) decodeSagRule
      ((liveSagRule liveBytes).merged manifest) (mergeSagRule manifest) liveBytes lastAppliedBytes := by
  have every : ∀ field, field ∈ SagRuleField.all := by
    intro field
    cases field <;> decide
  refine (mergeSagRuleFields_tallied manifest _ _).mergedRightly rfl (by decide) ?_ ?_ ?_ ?_
  · intro field other
    exact absurd (every field) other
  · intro _
    exact MessageLaws.decode_encode_rule _
  · intro baseline
    rw [mergeSagRule_unchanged,liveSagRule_encode]
    exact SagRule.merged_idle _ _
  · intro agreed baseline
    exact (mergeSagRule_unchanged _ _ _).mpr ((rule_agreed_iff _ _ _).mp agreed)

/-- A workload is merged as it should be exactly if nothing that the manifest sets is overlooked, a rule always. -/
theorem merges_rightly_iff : (∀ (manifest : ManifestWorkloadSpec) (liveBytes lastAppliedBytes : Bytes),
      MergedRightly WorkloadField.path (workloadVerdict manifest liveBytes lastAppliedBytes)
          decodeWorkloadSpec ((liveWorkload liveBytes).overlay manifest) (mergeWorkload manifest) liveBytes
          lastAppliedBytes ↔
        NothingOverlooked (workloadVerdict manifest liveBytes lastAppliedBytes)) ∧
    ∀ (manifest : ManifestSagRuleSpec) (liveBytes lastAppliedBytes : Bytes),
      MergedRightly SagRuleField.path (ruleVerdict manifest liveBytes lastAppliedBytes) decodeSagRule
        ((liveSagRule liveBytes).merged manifest) (mergeSagRule manifest) liveBytes lastAppliedBytes :=
  ⟨mergeWorkload_rightly_iff,mergeSagRule_rightly⟩

end

open Reference

def shopBytes : Bytes := encodeWorkloadSpec (shopSpec "web" 1)

theorem new_image_merged : ∃ bytes, mergeWorkload { image := some "registry.example/shop:v2" } shopBytes
        (encodeMessage manifestWorkloadSpec { image := some (shopSpec "web" 1).image }) = .updated bytes ∧
      decodeWorkloadSpec bytes =
        .ok ((shopSpec "web" 1).overlay { image := some "registry.example/shop:v2" }) := by
  have live : liveWorkload shopBytes = shopSpec "web" 1 := liveWorkload_encode _
  have rightly := (merges_rightly_iff.1 { image := some "registry.example/shop:v2" } shopBytes
    (encodeMessage manifestWorkloadSpec { image := some (shopSpec "web" 1).image })).mpr (by
      intro field other
      cases field <;> first | exact absurd (by decide) other | exact .inl (by decide +kernel))
  rw [live] at rightly
  refine rightly.updated ?_ ⟨.image,by decide +kernel⟩
  intro field
  cases field <;> decide +kernel

/-- The priority of the template is set by the manifest and by nobody else, and the merge finds nothing to do. -/
theorem priority_overlooked : mergeWorkload { podSpec := some { priority := 100 } } shopBytes [] = .unchanged ∧
      workloadVerdict { podSpec := some { priority := 100 } } shopBytes [] .priority = .outdated ∧
      ¬MergedRightly WorkloadField.path (workloadVerdict { podSpec := some { priority := 100 } } shopBytes [])
        decodeWorkloadSpec ((liveWorkload shopBytes).overlay { podSpec := some { priority := 100 } })
        (mergeWorkload { podSpec := some { priority := 100 } }) shopBytes [] := by
  have unchanged : mergeWorkload { podSpec := some { priority := 100 } } shopBytes [] = .unchanged := by decide +kernel
  have outdated : workloadVerdict { podSpec := some { priority := 100 } } shopBytes [] .priority = .outdated := by
    decide +kernel
  refine ⟨unchanged,outdated,fun rightly => ?_⟩
  obtain ⟨bytes,updated,_⟩ := rightly.updated (by intro field; cases field <;> decide +kernel) ⟨_,outdated⟩
  cases unchanged.symm.trans updated

end FleetosControl
