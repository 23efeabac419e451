import FleetosControl.Reference

/-! The three-way merges of apply. A field that a manifest sets is replaced, unless the live value
is neither the last applied one nor the one asked for. -/
namespace FleetosControl
open Wire Std

structure ManifestWorkloadSpec where
  image : Option String := none
  replicas : ExtTreeMap String UInt32 compare := ∅
  podSpec : Option PodSpec := none
  placement : Option Int32 := none
  updateStrategy : Option Bytes := none
  autoscaling : Option AutoscalingPolicy := none
  deriving DecidableEq

structure PeerSelector where
  tenant : String := ""
  serviceName : String := ""
  role : String := ""
  port : Option UInt32 := none
  deriving DecidableEq

structure SagRule where
  id : String := ""
  fromSide : Option PeerSelector := none
  toSide : Option PeerSelector := none
  action : Int32 := 0
  deriving DecidableEq

structure ManifestSagRuleSpec where
  fromSide : Option PeerSelector := none
  toSide : Option PeerSelector := none
  action : Option Int32 := none
  deriving DecidableEq

structure ManifestNodePoolSpec where
  desiredCount : Option UInt32 := none
  vcpus : Option UInt32 := none
  memoryMb : Option UInt32 := none
  diskGb : Option UInt32 := none
  regionHint : Option String := none
  deriving DecidableEq

class ManifestMessages where
  decodeManifestWorkloadSpec : Bytes → Except String ManifestWorkloadSpec
  decodeSagRule : Bytes → Except String SagRule
  encodeSagRule : SagRule → Bytes
  debugReplicas : ExtTreeMap String UInt32 compare → String
  debugResources : Option ResourceRequirements → String
  debugStrings : ExtTreeMap String String compare → String
  debugAutoscaling : Option AutoscalingPolicy → String
  debugSide : PeerSelector → String
  debugOptionalSide : Option PeerSelector → String

export ManifestMessages (decodeSagRule encodeSagRule debugStrings debugResources debugReplicas debugOptionalSide debugAutoscaling debugSide
  decodeManifestWorkloadSpec)

structure Merging (σ : Type) where
  live : σ
  conflicts : List FieldConflict := []
  changed : Bool := false

namespace Merging
variable {σ α : Type} {merging : Merging σ} {path : String} {text written : α → String} {get : σ → α} {set : σ → α → σ}
  {last : α} {wanted : Option α}

/-- One field. `text` and `written` print the stored values and the one asked for. -/
def field [DecidableEq α] (merging : Merging σ) (path : String) (text written : α → String) (get : σ → α)
    (set : σ → α → σ) (last : α) (wanted : Option α) : Merging σ :=
  match wanted with
  | none => merging
  | some value =>
    if get merging.live ≠ last ∧ get merging.live ≠ value then
      { merging with conflicts := merging.conflicts ++ [⟨path,text (get merging.live),written value,text last⟩] }
    else if get merging.live ≠ value then { merging with live := set merging.live value, changed := true }
    else merging

def outcome (merging : Merging σ) (encode : σ → Bytes) : MergeOutcome :=
  if !merging.conflicts.isEmpty then .conflicted merging.conflicts
  else if merging.changed then .updated (encode merging.live)
  else .unchanged

theorem outcome_updated {encode : σ → Bytes} (updated : merging.outcome encode = .updated bytes) :
    merging.conflicts = [] ∧ bytes = encode merging.live := by
  unfold outcome at updated
  split at updated
  · cases updated
  case isFalse clean =>
    split at updated <;> cases updated
    exact ⟨by simpa using clean,rfl⟩

theorem field_clean [DecidableEq α] (lawful : ∀ live, set live (get live) = live)
    (clean : (merging.field path text written get set last wanted).conflicts = []) :
    merging.conflicts = [] ∧
      (merging.field path text written get set last wanted).live = set merging.live (wanted.getD (get merging.live)) := by
  cases wanted with
  | none => exact ⟨clean,(lawful _).symm⟩
  | some value =>
    simp only [field] at clean ⊢
    split at clean
    · simp at clean
    case isFalse agreed =>
      rw [if_neg agreed]
      split at clean
      case isTrue differs =>
        rw [if_pos differs]
        exact ⟨clean,rfl⟩
      case isFalse same =>
        rw [if_neg same]
        refine ⟨clean,?_⟩
        rw [Option.getD_some,← not_not.mp same,lawful]

theorem field_keeps [DecidableEq α] {β : Type} (other : σ → β)
    (apart : ∀ live value, other (set live value) = other live) :
    other (merging.field path text written get set last wanted).live = other merging.live := by
  cases wanted with
  | none => rfl
  | some value =>
    simp only [field]
    split
    · rfl
    · split
      · exact apart _ _
      · rfl

/-- A verdict reached field by field, from the live value, the baseline and the value asked for. -/
structure Judgement where
  passes : List FieldConflict → Bool → Prop
  holds : ∀ {α : Type}, α → α → Option α → Prop
  start : passes [] false
  field : ∀ {σ α : Type} [DecidableEq α] (merging : Merging σ) (path : String) (text written : α → String)
    (get : σ → α) (set : σ → α → σ) (last : α) (wanted : Option α),
    passes (merging.field path text written get set last wanted).conflicts
        (merging.field path text written get set last wanted).changed ↔
      passes merging.conflicts merging.changed ∧ holds (get merging.live) last wanted

def clean : Judgement where
  passes conflicts _ := conflicts = []
  holds live last wanted := ∀ value ∈ wanted, live = last ∨ live = value
  start := rfl
  field merging path text written get set last wanted := by
    cases wanted with
    | none => simp [Merging.field]
    | some value =>
      simp only [Merging.field]
      split
      case isTrue differs => simp [differs.1,differs.2]
      case isFalse agreed =>
        have free : get merging.live = last ∨ get merging.live = value := by
          by_contra neither
          push Not at neither
          exact agreed neither
        split <;> simp [free]

def idle : Judgement where
  passes conflicts changed := conflicts = [] ∧ changed = false
  holds live _ wanted := ∀ value ∈ wanted, live = value
  start := ⟨rfl,rfl⟩
  field merging path text written get set last wanted := by
    cases wanted with
    | none => simp [Merging.field]
    | some value =>
      simp only [Merging.field]
      split
      case isTrue differs => simp [differs.2]
      case isFalse =>
        split
        case isTrue differs => simp [differs]
        case isFalse same => simp [not_not.mp same]

theorem outcome_conflicted_iff (merging : Merging σ) (encode : σ → Bytes) :
    (∃ conflicts, merging.outcome encode = .conflicted conflicts) ↔ ¬clean.passes merging.conflicts merging.changed := by
  unfold outcome clean
  cases merging.conflicts with
  | nil => cases merging.changed <;> simp
  | cons => simp

theorem outcome_unchanged_iff (merging : Merging σ) (encode : σ → Bytes) :
    merging.outcome encode = .unchanged ↔ idle.passes merging.conflicts merging.changed := by
  unfold outcome idle
  cases merging.conflicts with
  | nil => cases merging.changed <;> simp
  | cons => simp

end Merging

export Merging (field_keeps field_clean outcome_updated Judgement)

def unlessEmpty {α : Type} (empty : Bool) (value : α) : Option α := if empty then none else some value

def PodSpec.merged (pod manifestPod : PodSpec) : PodSpec :=
  { pod with
    resources := manifestPod.resources.or pod.resources
    env := (unlessEmpty manifestPod.env.isEmpty manifestPod.env).getD pod.env
    labels := (unlessEmpty manifestPod.labels.isEmpty manifestPod.labels).getD pod.labels }

def WorkloadSpec.merged (live : WorkloadSpec) (manifest : ManifestWorkloadSpec) : WorkloadSpec :=
  { live with
    image := manifest.image.getD live.image
    replicas := (unlessEmpty manifest.replicas.isEmpty manifest.replicas).getD live.replicas
    podSpec := (manifest.podSpec.map (live.podSpec.getD {}).merged).or live.podSpec
    placement := manifest.placement.getD live.placement
    autoscaling := manifest.autoscaling.or live.autoscaling }

def SagRule.merged (live : SagRule) (manifest : ManifestSagRuleSpec) : SagRule :=
  { live with
    fromSide := manifest.fromSide.or live.fromSide
    toSide := manifest.toSide.or live.toSide
    action := manifest.action.getD live.action }

def NodePoolRecord.merged (live : NodePoolRecord) (manifest : ManifestNodePoolSpec) : NodePoolRecord :=
  { live with
    desiredCount := manifest.desiredCount.getD live.desiredCount
    vcpus := manifest.vcpus.getD live.vcpus
    memoryMb := manifest.memoryMb.getD live.memoryMb
    diskGb := manifest.diskGb.getD live.diskGb
    regionHint := manifest.regionHint.getD live.regionHint }

section
variable (judgement : Judgement)

/-- The judgement of the fields of a pod template, of a workload and so on, with the defaults for a baseline. -/
def PodSpec.Fields (live manifest : PodSpec) : Prop :=
  judgement.holds live.resources none (manifest.resources.map some) ∧
    judgement.holds live.env ∅ (unlessEmpty manifest.env.isEmpty manifest.env) ∧
    judgement.holds live.labels ∅ (unlessEmpty manifest.labels.isEmpty manifest.labels)

def WorkloadSpec.Fields (live : WorkloadSpec) (manifest : ManifestWorkloadSpec) : Prop :=
  judgement.holds live.image "" manifest.image ∧
    judgement.holds live.replicas ∅ (unlessEmpty manifest.replicas.isEmpty manifest.replicas) ∧
    (∀ pod ∈ manifest.podSpec, (live.podSpec.getD {}).Fields judgement pod) ∧
    judgement.holds live.placement 0 manifest.placement ∧
    judgement.holds live.autoscaling none (manifest.autoscaling.map some)

def SagRule.Fields (live : SagRule) (manifest : ManifestSagRuleSpec) : Prop :=
  judgement.holds live.fromSide none (manifest.fromSide.map some) ∧
    judgement.holds live.toSide none (manifest.toSide.map some) ∧ judgement.holds live.action 0 manifest.action

-- A node pool is its own baseline.
def NodePoolRecord.Fields (live : NodePoolRecord) (manifest : ManifestNodePoolSpec) : Prop :=
  judgement.holds live.desiredCount live.desiredCount manifest.desiredCount ∧
    judgement.holds live.vcpus live.vcpus manifest.vcpus ∧ judgement.holds live.memoryMb live.memoryMb manifest.memoryMb ∧
    judgement.holds live.diskGb live.diskGb manifest.diskGb ∧
    judgement.holds live.regionHint live.regionHint manifest.regionHint

end

theorem PodSpec.merged_idle (pod manifest : PodSpec) : (pod.merged manifest).Fields Merging.idle manifest := by
  unfold PodSpec.Fields PodSpec.merged Merging.idle
  refine ⟨?_,?_,?_⟩ <;> intro value asked
  · obtain ⟨resources,set,rfl⟩ := map_eq_some_iff.mp asked
    simp [set]
  · simp [Option.mem_def.mp asked]
  · simp [Option.mem_def.mp asked]

theorem WorkloadSpec.merged_idle (live : WorkloadSpec) (manifest : ManifestWorkloadSpec) :
    (live.merged manifest).Fields Merging.idle manifest := by
  unfold WorkloadSpec.Fields
  refine ⟨?_,?_,?_,?_,?_⟩
  · intro value asked
    simp [WorkloadSpec.merged,Option.mem_def.mp asked]
  · intro value asked
    simp [WorkloadSpec.merged,Option.mem_def.mp asked]
  · intro pod asked
    have merged : ((live.merged manifest).podSpec.getD {}) = (live.podSpec.getD {}).merged pod := by
      simp [WorkloadSpec.merged,Option.mem_def.mp asked]
    rw [merged]
    exact PodSpec.merged_idle _ _
  · intro value asked
    simp [WorkloadSpec.merged,Option.mem_def.mp asked]
  · intro value asked
    obtain ⟨policy,set,rfl⟩ := map_eq_some_iff.mp asked
    simp [WorkloadSpec.merged,set]

theorem SagRule.merged_idle (live : SagRule) (manifest : ManifestSagRuleSpec) :
    (live.merged manifest).Fields Merging.idle manifest := by
  unfold SagRule.Fields SagRule.merged
  refine ⟨?_,?_,?_⟩ <;> intro value asked
  · obtain ⟨side,set,rfl⟩ := map_eq_some_iff.mp asked
    simp [set]
  · obtain ⟨side,set,rfl⟩ := map_eq_some_iff.mp asked
    simp [set]
  · simp [Option.mem_def.mp asked]

theorem NodePoolRecord.merged_idle (live : NodePoolRecord) (manifest : ManifestNodePoolSpec) :
    (live.merged manifest).Fields Merging.idle manifest := by
  unfold NodePoolRecord.Fields NodePoolRecord.merged
  refine ⟨?_,?_,?_,?_,?_⟩ <;> intro value asked <;> simp [Option.mem_def.mp asked]

section
variable [ManifestMessages] {manifestPod : Option PodSpec} {lastPod : PodSpec} {merging : Merging WorkloadSpec}
  {manifest : ManifestSagRuleSpec}

-- The fields that the controllers assign are left alone, and so are all others.
def mergePodSpec (manifestPod lastPod : PodSpec) (merging : Merging PodSpec) : Merging PodSpec :=
  merging
    |>.field "pod_spec.resources" debugResources debugResources (·.resources)
      (fun pod resources => { pod with resources := resources }) lastPod.resources (manifestPod.resources.map some)
    |>.field "pod_spec.env" debugStrings debugStrings (·.env)
      (fun pod env => { pod with env := env }) lastPod.env (unlessEmpty manifestPod.env.isEmpty manifestPod.env)
    |>.field "pod_spec.labels" debugStrings debugStrings (·.labels)
      (fun pod labels => { pod with labels := labels }) lastPod.labels
      (unlessEmpty manifestPod.labels.isEmpty manifestPod.labels)

/-- The pod template is unpacked, or started empty, and put back. -/
def mergePodTemplate (manifestPod : Option PodSpec) (lastPod : PodSpec) (merging : Merging WorkloadSpec) :
    Merging WorkloadSpec :=
  match manifestPod with
  | some manifestPod =>
    let pod := mergePodSpec manifestPod lastPod ⟨merging.live.podSpec.getD {},merging.conflicts,merging.changed⟩
    ⟨{ merging.live with podSpec := some pod.live },pod.conflicts,pod.changed⟩
  | none => merging

def mergeWorkloadFields (manifest last : ManifestWorkloadSpec) (live : WorkloadSpec) : Merging WorkloadSpec :=
  (⟨live,[],false⟩ : Merging WorkloadSpec)
    |>.field "image" id id (·.image) (fun live image => { live with image := image }) (last.image.getD "") manifest.image
    |>.field "replicas" debugReplicas debugReplicas (·.replicas)
      (fun live replicas => { live with replicas := replicas }) last.replicas
      (unlessEmpty manifest.replicas.isEmpty manifest.replicas)
    |> mergePodTemplate manifest.podSpec (last.podSpec.getD {})
    |>.field "placement" toString toString (·.placement) (fun live placement => { live with placement := placement })
      (last.placement.getD 0) manifest.placement
    |>.field "autoscaling" debugAutoscaling debugAutoscaling (·.autoscaling)
      (fun live autoscaling => { live with autoscaling := autoscaling }) last.autoscaling (manifest.autoscaling.map some)

theorem mergePodSpec_passes (judgement : Judgement) (manifestPod : PodSpec) (merging : Merging PodSpec) :
    judgement.passes (mergePodSpec manifestPod {} merging).conflicts (mergePodSpec manifestPod {} merging).changed ↔
      judgement.passes merging.conflicts merging.changed ∧ merging.live.Fields judgement manifestPod := by
  unfold mergePodSpec PodSpec.Fields
  simp only [judgement.field,field_keeps PodSpec.labels,field_keeps PodSpec.env,implies_true]
  tauto

theorem mergePodTemplate_passes (judgement : Judgement) (manifestPod : Option PodSpec)
    (merging : Merging WorkloadSpec) :
    judgement.passes (mergePodTemplate manifestPod {} merging).conflicts (mergePodTemplate manifestPod {} merging).changed ↔
      judgement.passes merging.conflicts merging.changed ∧
        ∀ pod ∈ manifestPod, (merging.live.podSpec.getD {}).Fields judgement pod := by
  cases manifestPod with
  | none => simp [mergePodTemplate]
  | some pod =>
    simp only [mergePodTemplate,mergePodSpec_passes]
    simp

theorem mergePodTemplate_keeps {β : Type} (other : WorkloadSpec → β)
    (apart : ∀ live pod, other { live with podSpec := pod } = other live) :
    other (mergePodTemplate manifestPod lastPod merging).live = other merging.live := by
  cases manifestPod with
  | none => rfl
  | some pod => exact apart _ _

theorem mergeWorkloadFields_passes (judgement : Judgement) (manifest : ManifestWorkloadSpec) (live : WorkloadSpec) :
    judgement.passes (mergeWorkloadFields manifest {} live).conflicts (mergeWorkloadFields manifest {} live).changed ↔
      live.Fields judgement manifest := by
  unfold mergeWorkloadFields WorkloadSpec.Fields
  simp only [judgement.field,mergePodTemplate_passes,mergePodTemplate_keeps WorkloadSpec.autoscaling,
    mergePodTemplate_keeps WorkloadSpec.placement,field_keeps WorkloadSpec.autoscaling,
    field_keeps WorkloadSpec.placement,field_keeps WorkloadSpec.podSpec,
    field_keeps WorkloadSpec.replicas,Option.getD_none,implies_true]
  have begun : judgement.passes [] false := judgement.start
  tauto

theorem mergePodSpec_clean {manifestPod merging} (clean : (mergePodSpec manifestPod lastPod merging).conflicts = []) :
    merging.conflicts = [] ∧ (mergePodSpec manifestPod lastPod merging).live = merging.live.merged manifestPod := by
  unfold mergePodSpec at clean ⊢
  obtain ⟨clean,labels⟩ := field_clean (fun _ => rfl) clean
  obtain ⟨clean,env⟩ := field_clean (fun _ => rfl) clean
  obtain ⟨clean,resources⟩ := field_clean (fun _ => rfl) clean
  refine ⟨clean,?_⟩
  rw [labels,env,resources]
  cases wanted : manifestPod.resources <;> simp [PodSpec.merged,wanted]

theorem mergePodTemplate_clean (clean : (mergePodTemplate manifestPod lastPod merging).conflicts = []) :
    merging.conflicts = [] ∧ (mergePodTemplate manifestPod lastPod merging).live =
      { merging.live with podSpec := (manifestPod.map (merging.live.podSpec.getD {}).merged).or merging.live.podSpec } := by
  cases manifestPod with
  | none => exact ⟨clean,rfl⟩
  | some pod =>
    obtain ⟨clean,merged⟩ := mergePodSpec_clean clean
    refine ⟨clean,?_⟩
    simp only [mergePodTemplate,merged,Option.map_some,Option.some_or]

theorem mergeWorkloadFields_clean {manifest last live}
    (clean : (mergeWorkloadFields manifest last live).conflicts = []) :
    (mergeWorkloadFields manifest last live).live = live.merged manifest := by
  unfold mergeWorkloadFields at clean ⊢
  obtain ⟨clean,autoscaling⟩ := field_clean (fun _ => rfl) clean
  obtain ⟨clean,placement⟩ := field_clean (fun _ => rfl) clean
  obtain ⟨clean,pod⟩ := mergePodTemplate_clean clean
  obtain ⟨clean,replicas⟩ := field_clean (fun _ => rfl) clean
  obtain ⟨_,image⟩ := field_clean (fun _ => rfl) clean
  rw [autoscaling,placement,pod,replicas,image]
  cases wanted : manifest.autoscaling <;> simp [WorkloadSpec.merged,wanted]

def liveSagRule (bytes : Bytes) : SagRule :=
  if bytes.isEmpty then {} else (decodeSagRule bytes).toOption.getD {}

def mergeSagRuleFields (manifest : ManifestSagRuleSpec) (last live : SagRule) : Merging SagRule :=
  let written := fun side : Option PeerSelector => (side.map debugSide).getD ""
  (⟨live,[],false⟩ : Merging SagRule)
    |>.field "from" debugOptionalSide written (·.fromSide)
      (fun live side => { live with fromSide := side }) last.fromSide (manifest.fromSide.map some)
    |>.field "to" debugOptionalSide written (·.toSide)
      (fun live side => { live with toSide := side }) last.toSide (manifest.toSide.map some)
    |>.field "action" toString toString (·.action) (fun live action => { live with action := action }) last.action
      manifest.action

theorem mergeSagRuleFields_passes (judgement : Judgement) (manifest : ManifestSagRuleSpec) (live : SagRule) :
    judgement.passes (mergeSagRuleFields manifest {} live).conflicts (mergeSagRuleFields manifest {} live).changed ↔
      live.Fields judgement manifest := by
  unfold mergeSagRuleFields SagRule.Fields
  simp only [judgement.field,field_keeps SagRule.action,field_keeps SagRule.toSide,implies_true]
  have begun : judgement.passes [] false := judgement.start
  tauto

theorem mergeSagRuleFields_clean (clean : (mergeSagRuleFields manifest last live).conflicts = []) :
    (mergeSagRuleFields manifest last live).live = live.merged manifest := by
  unfold mergeSagRuleFields at clean ⊢
  obtain ⟨clean,action⟩ := field_clean (fun _ => rfl) clean
  obtain ⟨clean,toSide⟩ := field_clean (fun _ => rfl) clean
  obtain ⟨_,fromSide⟩ := field_clean (fun _ => rfl) clean
  rw [action,toSide,fromSide]
  cases wanted : manifest.fromSide <;> cases other : manifest.toSide <;> simp [SagRule.merged,wanted,other]

def mergeSagRule (manifest : ManifestSagRuleSpec) (liveBytes lastAppliedBytes : Bytes) : MergeOutcome :=
  (mergeSagRuleFields manifest (liveSagRule lastAppliedBytes) (liveSagRule liveBytes)).outcome
    encodeSagRule

theorem mergeSagRule_updated (updated : mergeSagRule manifest liveBytes lastAppliedBytes = .updated bytes) :
    bytes = encodeSagRule ((liveSagRule liveBytes).merged manifest) := by
  obtain ⟨clean,written⟩ := outcome_updated updated
  rw [written,mergeSagRuleFields_clean clean]

theorem mergeSagRule_conflicted_iff (manifest : ManifestSagRuleSpec) (liveBytes : Bytes) :
    (∃ conflicts, mergeSagRule manifest liveBytes [] = .conflicted conflicts) ↔
      ¬(liveSagRule liveBytes).Fields Merging.clean manifest :=
  (Merging.outcome_conflicted_iff _ _).trans (not_congr (mergeSagRuleFields_passes Merging.clean manifest _))

theorem mergeSagRule_unchanged_iff (manifest : ManifestSagRuleSpec) (liveBytes : Bytes) :
    mergeSagRule manifest liveBytes [] = .unchanged ↔ (liveSagRule liveBytes).Fields Merging.idle manifest :=
  (Merging.outcome_unchanged_iff _ _).trans (mergeSagRuleFields_passes Merging.idle manifest _)

section
variable [FleetosCore]

/-- The live record as the merge reads it: bytes that are no protobuf read as the default. -/
def liveWorkload (liveBytes : Bytes) : WorkloadSpec :=
  if liveBytes.isEmpty then {} else (decodeWorkloadSpec liveBytes).toOption.getD {}

def mergeWorkload [WorkloadMessages] (manifest : ManifestWorkloadSpec) (liveBytes lastAppliedBytes : Bytes) :
    MergeOutcome :=
  let last := if lastAppliedBytes.isEmpty then {}
    else (decodeManifestWorkloadSpec lastAppliedBytes).toOption.getD {}
  (mergeWorkloadFields manifest last (liveWorkload liveBytes)).outcome encodeWorkloadSpec

theorem mergeWorkload_updated [WorkloadMessages] {manifest liveBytes lastAppliedBytes bytes}
    (updated : mergeWorkload manifest liveBytes lastAppliedBytes = .updated bytes) :
    bytes = encodeWorkloadSpec ((liveWorkload liveBytes).merged manifest) := by
  obtain ⟨clean,written⟩ := outcome_updated updated
  rw [written,mergeWorkloadFields_clean clean]

theorem mergeWorkload_conflicted_iff [WorkloadMessages] (manifest : ManifestWorkloadSpec) (liveBytes : Bytes) :
    (∃ conflicts, mergeWorkload manifest liveBytes [] = .conflicted conflicts) ↔
      ¬(liveWorkload liveBytes).Fields Merging.clean manifest :=
  (Merging.outcome_conflicted_iff _ _).trans (not_congr (mergeWorkloadFields_passes Merging.clean manifest _))

theorem mergeWorkload_unchanged_iff [WorkloadMessages] (manifest : ManifestWorkloadSpec) (liveBytes : Bytes) :
    mergeWorkload manifest liveBytes [] = .unchanged ↔ (liveWorkload liveBytes).Fields Merging.idle manifest :=
  (Merging.outcome_unchanged_iff _ _).trans (mergeWorkloadFields_passes Merging.idle manifest _)

/-- The encodings of prost: a rule is read back as it was, and nothing but a default message takes no bytes. -/
class MessageLaws [WorkloadMessages] : Prop where
  encode_workload_nil : ∀ spec, encodeWorkloadSpec spec = [] → spec = {}
  decode_encode_rule : ∀ rule, decodeSagRule (encodeSagRule rule) = .ok rule
  encode_rule_nil : ∀ rule, encodeSagRule rule = [] → rule = {}

variable [WorkloadMessages] [MessageLaws]

@[simp] theorem liveWorkload_encode (spec : WorkloadSpec) : liveWorkload (encodeWorkloadSpec spec) = spec := by
  unfold liveWorkload
  split
  case isTrue empty => exact (MessageLaws.encode_workload_nil spec (List.isEmpty_iff.mp empty)).symm
  case isFalse => simp [Except.toOption]

@[simp] theorem liveSagRule_encode (rule : SagRule) : liveSagRule (encodeSagRule rule) = rule := by
  unfold liveSagRule
  split
  case isTrue empty => exact (MessageLaws.encode_rule_nil rule (List.isEmpty_iff.mp empty)).symm
  case isFalse => simp [MessageLaws.decode_encode_rule,Except.toOption]

end

end

def mergeNodePoolFields (manifest : ManifestNodePoolSpec) (last live : NodePoolRecord) : Merging NodePoolRecord :=
  (⟨live,[],false⟩ : Merging NodePoolRecord)
    |>.field "desired_count" toString toString (·.desiredCount) (fun live count => { live with desiredCount := count })
      last.desiredCount manifest.desiredCount
    |>.field "vcpus" toString toString (·.vcpus) (fun live vcpus => { live with vcpus := vcpus }) last.vcpus
      manifest.vcpus
    |>.field "memory_mb" toString toString (·.memoryMb) (fun live mem => { live with memoryMb := mem }) last.memoryMb
      manifest.memoryMb
    |>.field "disk_gb" toString toString (·.diskGb) (fun live disk => { live with diskGb := disk }) last.diskGb
      manifest.diskGb
    |>.field "region_hint" id id (·.regionHint) (fun live region => { live with regionHint := region })
      last.regionHint manifest.regionHint

theorem mergeNodePoolFields_passes (judgement : Judgement) (manifest : ManifestNodePoolSpec)
    (live : NodePoolRecord) :
    judgement.passes (mergeNodePoolFields manifest live live).conflicts (mergeNodePoolFields manifest live live).changed ↔
      live.Fields judgement manifest := by
  unfold mergeNodePoolFields NodePoolRecord.Fields
  simp only [judgement.field,field_keeps NodePoolRecord.vcpus,field_keeps NodePoolRecord.memoryMb,
    field_keeps NodePoolRecord.diskGb,field_keeps NodePoolRecord.regionHint,implies_true]
  have begun : judgement.passes [] false := judgement.start
  tauto

theorem mergeNodePoolFields_clean (clean : (mergeNodePoolFields manifest last live).conflicts = []) :
    (mergeNodePoolFields manifest last live).live = live.merged manifest := by
  unfold mergeNodePoolFields at clean ⊢
  obtain ⟨clean,region⟩ := field_clean (fun _ => rfl) clean
  obtain ⟨clean,disk⟩ := field_clean (fun _ => rfl) clean
  obtain ⟨clean,memory⟩ := field_clean (fun _ => rfl) clean
  obtain ⟨clean,vcpus⟩ := field_clean (fun _ => rfl) clean
  obtain ⟨_,count⟩ := field_clean (fun _ => rfl) clean
  rw [region,disk,memory,vcpus,count]
  rfl

section
variable [Postcard NodePoolRecord]

def liveNodePool (liveBytes : Bytes) : NodePoolRecord :=
  (fromBytes liveBytes).toOption.getD ⟨"",.agent,0,0,0,0,"",[]⟩

@[simp] theorem liveNodePool_toAllocvec (record : NodePoolRecord) : liveNodePool (toAllocvec record) = record := by
  simp [liveNodePool,Except.toOption]

/-- Without a baseline the live record is its own, so this merge never conflicts. -/
def mergeNodePool (manifest : ManifestNodePoolSpec) (liveBytes lastAppliedBytes : Bytes) : MergeOutcome :=
  if liveBytes.isEmpty then .unchanged
  else
    let live := liveNodePool liveBytes
    let last := if lastAppliedBytes.isEmpty then live else (fromBytes lastAppliedBytes).toOption.getD live
    (mergeNodePoolFields manifest last live).outcome toAllocvec

theorem mergeNodePool_updated (updated : mergeNodePool manifest liveBytes lastAppliedBytes = .updated bytes) :
    bytes = toAllocvec ((liveNodePool liveBytes).merged manifest) := by
  unfold mergeNodePool at updated
  split at updated
  · cases updated
  · obtain ⟨clean,written⟩ := outcome_updated updated
    rw [written,mergeNodePoolFields_clean clean]

theorem mergeNodePool_agreed (manifest : ManifestNodePoolSpec) (liveBytes : Bytes) (conflicts : List FieldConflict) :
    mergeNodePool manifest liveBytes [] ≠ .conflicted conflicts := by
  intro conflicted
  unfold mergeNodePool at conflicted
  split at conflicted
  · cases conflicted
  · refine (Merging.outcome_conflicted_iff _ _).mp ⟨_,conflicted⟩ ((mergeNodePoolFields_passes Merging.clean _ _).mpr ?_)
    simp [NodePoolRecord.Fields,Merging.clean]

theorem mergeNodePool_unchanged_iff (manifest : ManifestNodePoolSpec) (liveBytes : Bytes) :
    mergeNodePool manifest liveBytes [] = .unchanged ↔
      liveBytes = [] ∨ (liveNodePool liveBytes).Fields Merging.idle manifest := by
  unfold mergeNodePool
  split
  case isTrue empty => simp [List.isEmpty_iff.mp empty]
  case isFalse stored =>
    have present : liveBytes ≠ [] := fun empty => stored (List.isEmpty_iff.mpr empty)
    rw [or_iff_right present]
    exact (Merging.outcome_unchanged_iff _ _).trans (mergeNodePoolFields_passes Merging.idle manifest _)

end

namespace Manifests

scoped instance merges [FleetosCore] [WorkloadMessages] [ManifestMessages] [Formats] : Merges where
  ManifestWorkloadSpec := ManifestWorkloadSpec
  ManifestSagRuleSpec := ManifestSagRuleSpec
  ManifestNodePoolSpec := ManifestNodePoolSpec
  mergeWorkload := mergeWorkload
  mergeSagRule := mergeSagRule
  mergeNodePool := mergeNodePool

end Manifests

namespace Reference
open Wire.Codec

def manifestWorkloadSpec : Codec ManifestWorkloadSpec :=
  ((option string).pair ((sortedMap string u32).pair ((option podSpec).pair ((option i32).pair ((option bytes).pair
    (option autoscalingPolicy)))))).iso
    (fun ⟨a,b,c,d,e,f⟩ => (a,b,c,d,e,f)) (fun (a,b,c,d,e,f) => ⟨a,b,c,d,e,f⟩) (fun _ => rfl)

def peerSelector : Codec PeerSelector :=
  (string.pair (string.pair (string.pair (option u32)))).iso (fun ⟨a,b,c,d⟩ => (a,b,c,d)) (fun (a,b,c,d) => ⟨a,b,c,d⟩)
    (fun _ => rfl)

def sagRule : Codec SagRule :=
  (string.pair ((option peerSelector).pair ((option peerSelector).pair i32))).iso
    (fun ⟨a,b,c,d⟩ => (a,b,c,d)) (fun (a,b,c,d) => ⟨a,b,c,d⟩) (fun _ => rfl)

instance manifestMessages : ManifestMessages where
  decodeManifestWorkloadSpec := decodeMessage manifestWorkloadSpec {}
  decodeSagRule := decodeMessage sagRule {}
  encodeSagRule := encodeMessage sagRule
  debugReplicas _ := "replicas"
  debugResources _ := "resources"
  debugStrings _ := "strings"
  debugAutoscaling _ := "autoscaling"
  debugSide _ := "side"
  debugOptionalSide _ := "side"

instance messageLaws : MessageLaws where
  encode_workload_nil _ empty := nomatch empty
  decode_encode_rule := decodeMessage_encodeMessage sagRule {}
  encode_rule_nil _ empty := nomatch empty

end Reference

end FleetosControl
